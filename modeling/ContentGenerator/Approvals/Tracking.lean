import ContentGenerator.Approvals.Operations

/-!
# One request through the handlers

`Tracked r P Q w`: the row of the request `r` satisfies `P` in the session and `Q` where it is committed;
both may speak of the calls of the operation. There is one rule for each action of the approvals module.
What the sending of a request may do to `r` is `Sendable`, what may happen on behalf of other requests is
`Watch`; under it every handler of another request keeps `r` as it is (`keeps_applyIntent_of_ne`).
-/

namespace ContentGenerator.Approvals

open Lib Lib.Action Workflows List Option KeyedTable

variable {f : ApprovalRequest → ApprovalRequest} {feedback : String} {id : ℕ} {σ α : Type}

def ServiceCall.requestId : ServiceCall → ℕ
  | .publishNow requestId => requestId
  | .published requestId => requestId
  | .resume requestId _ _ _ => requestId
  | .resumed requestId _ _ _ => requestId
  | .resumeSent requestId _ _ _ => requestId

/-- The follow-up of a decision: the publishing or the resume has returned, or the message that resumes the node
is on its way. -/
def ServiceCall.followsUp : ServiceCall → Bool
  | .published _ | .resumed .. | .resumeSent .. => true
  | .publishNow _ | .resume .. => false

def FollowedUp (id : ℕ) (calls : List ServiceCall) : Prop :=
  ∃ call ∈ calls, call.requestId = id ∧ call.followsUp = true

/-! ### Rows -/

@[simp] theorem request_update_self (w : World σ) (id : ℕ) (f : ApprovalRequest → ApprovalRequest) :
    (w.update id f).request id = (w.request id).map f := find_modify_self _ _ _

theorem request_update_of {w : World σ}
    {row : ApprovalRequest} (h : w.request id = some row) : (w.update id f).request id = some (f row) := by
  rw [request_update_self, h]
  rfl

theorem request_update_of_ne (w : World σ) {r : ℕ} (f : ApprovalRequest → ApprovalRequest)
    (h : r ≠ id) : (w.update id f).request r = w.request r := find_modify_of_ne _ f h

theorem le_foldr_max (l : List ℕ) {n : ℕ} (h : n ∈ l) : n ≤ l.foldr max 0 := by
  induction l with
  | nil => simp at h
  | cons head rest ih =>
    rw [foldr_cons]
    rcases mem_cons.mp h with rfl | hrest
    · exact le_max_left _ _
    · exact (ih hrest).trans (le_max_right _ _)

theorem request_nextId (w : World σ) : w.request w.nextId = none := by
  refine (find_eq_none_iff _ _).mpr fun hmem ↦ ?_
  have hle := le_foldr_max _ hmem
  unfold World.nextId at hle
  omega

theorem request_create (w : World σ) (request : ApprovalRequest) {r : ℕ} {row : ApprovalRequest}
    (h : w.request r = some row) : (w.create request).request r = some row := by
  refine (find_insertNew_of_ne _ _ ?_).trans h
  rintro rfl
  exact absurd (h.symm.trans (request_nextId w)) (some_ne_none row)

/-- The request a lookup finds satisfies the condition. -/
theorem exists_of_latestRequest {w : World σ} {matching : ApprovalRequest → Bool}
    (h : w.latestRequest matching = some id) :
    ∃ row, w.request id = some row ∧ matching row = true := by
  obtain ⟨entry, hfind, rfl⟩ := map_eq_some_iff.mp h
  have hmatch := find?_some hfind
  refine ⟨entry.2, (find_eq_some_iff _ _ _).mpr ?_, hmatch⟩
  exact mem_reverse.mp (mem_of_find?_eq_some hfind)

variable {contentJobId job : ℕ} {cbChatId chatId intent tenantId : String} {now : Time}
  {recipient : Option String} {request : ApprovalRequest}

theorem exists_of_requestForContentJob {w : World σ} (h : w.requestForContentJob job = some id) :
    ∃ row, w.request id = some row ∧ row.contentJobId = some job := by
  obtain ⟨row, hrow, hjob⟩ := exists_of_latestRequest h
  exact ⟨row, hrow, of_decide_eq_true hjob⟩

/-! ### Any invariant -/

section Invariant

variable {p : Platform σ} {Inv : World σ → Prop}

theorem keeps_deliverAll_of (h : ∀ name, Keeps Inv (updateRequest id fun request ↦ { request with channel := name }))
    (tenantId : String) (contentJobId : ℕ) (channels : List String) :
    Keeps Inv (deliverAll p tenantId id contentJobId channels) := by
  refine keeps_forEach fun channel _ ↦ keeps_ite (fun _ ↦ ?_) fun _ ↦ keeps_ite (fun _ ↦ ?_) fun _ ↦ keeps_pure ()
  · exact keeps_bind (keeps_readOr _) fun _ ↦ keeps_ite (fun _ ↦ h _) fun _ ↦ keeps_pure ()
  · exact keeps_bind (keeps_readOr _) fun _ ↦ keeps_ite (fun _ ↦ h _) fun _ ↦ keeps_pure ()

/-- A decided request makes one call at most, for the tenant of its row. -/
theorem keeps_maybeResume_of (h : ∀ w request token outcome decision, Inv w → w.request id = some request →
      Keeps Inv (callFor (.resume id request.tenantId token outcome) (.resumed id request.tenantId token outcome)
        (p.resumeWaitingNode request.tenantId token outcome decision))) :
    Keeps Inv (maybeResumeWorkflowFromApproval p id) := by
  refine keeps_read_bind fun w hw ↦ ?_
  cases hrequest : w.request id with
  | none => exact keeps_pure ()
  | some request =>
    dsimp only
    cases getWorkflowBinding request with
    | none => exact keeps_pure ()
    | some binding =>
      cases request.status.outcome with
      | none => exact keeps_pure ()
      | some outcome =>
        dsimp only
        cases bindingChannels binding with
        | none => exact keeps_raise _
        | some channels => exact h w request _ outcome _ hw hrequest

theorem keeps_publishApproved_of {request : ApprovalRequest} {job : ℕ}
    (h : ∀ published, Keeps Inv
      (callFor (.publishNow id) (.published id) (p.publishNow request.tenantId published))) :
    Keeps Inv (publishApproved p id request job) := by
  refine keeps_ite (fun _ ↦ ?_) fun _ ↦ keeps_ite (fun _ ↦ h _) fun _ ↦ keeps_pure ()
  exact keeps_bind (keeps_readOr _) fun platforms ↦ keeps_bind (keeps_readOr _) fun scheduledFor ↦ h _

theorem keeps_applyApprove_of (hset : Keeps Inv (setStatus id .approved))
    (htouch : ∀ tenantId job, Keeps Inv (touch (p.recordPreference tenantId job "approve")))
    (hpublish : ∀ w request published, Inv w → w.request id = some request → Keeps Inv
      (callFor (.publishNow id) (.published id) (p.publishNow request.tenantId published))) :
    Keeps Inv (applyApprove p id) := by
  refine keeps_bind hset fun _ ↦ keeps_read_bind fun w hw ↦ ?_
  cases hrequest : w.request id with
  | none => exact keeps_pure ()
  | some request =>
    dsimp only
    cases request.contentJobId with
    | none => exact keeps_pure ()
    | some job =>
      exact keeps_bind (htouch _ job) fun _ ↦ keeps_ite (fun _ ↦ keeps_pure ()) fun _ ↦
        keeps_publishApproved_of fun published ↦ hpublish w request published hw hrequest

theorem keeps_applyReject_of (hset : Keeps Inv (setStatus id .rejected))
    (htouch : ∀ tenantId job, Keeps Inv (touch (p.recordPreference tenantId job "reject"))) :
    Keeps Inv (applyReject p id) := by
  refine keeps_bind hset fun _ ↦ keeps_read_bind fun w _ ↦ ?_
  cases w.request id with
  | none => exact keeps_pure ()
  | some request =>
    dsimp only
    cases request.contentJobId with
    | none => exact keeps_pure ()
    | some job => exact htouch _ job

theorem keeps_applyRevise_of (hset : Keeps Inv (setStatus id .rejected))
    (hbegin : Keeps Inv (updateRequest id ApprovalRequest.beginRevision))
    (hrevise : ∀ w request job, Inv w → w.request id = some request →
      Keeps Inv (reviseContent p now id feedback request job)) :
    Keeps Inv (applyRevise p now id feedback) := by
  refine keeps_read_bind fun w hw ↦ ?_
  cases hrequest : w.request id with
  | none => exact keeps_pure ()
  | some request =>
    refine keeps_ite (fun _ ↦ hset) fun _ ↦ keeps_bind hbegin fun _ ↦ ?_
    cases request.contentJobId with
    | none => exact keeps_pure ()
    | some job => exact hrevise w request job hw hrequest

/-- An intent is one of the three decisions, and a resume. -/
theorem keeps_applyIntent_of {intent : String} {feedback : Option String}
    (happrove : Keeps Inv (applyApprove p id)) (hrevise : ∀ text, Keeps Inv (applyRevise p now id text))
    (hreject : Keeps Inv (applyReject p id)) (hresume : Keeps Inv (maybeResumeWorkflowFromApproval p id)) :
    Keeps Inv (applyIntent p now id intent feedback) := by
  unfold applyIntent
  cases haction : intentAction p now id intent feedback with
  | none => exact keeps_pure ()
  | some action =>
    refine keeps_bind ?_ fun _ ↦ hresume
    unfold intentAction at haction
    split_ifs at haction
    · cases haction
      exact happrove
    · obtain ⟨text, -, rfl⟩ := map_eq_some_iff.mp haction
      exact hrevise text
    · cases haction
      exact hreject

/-- What follows a call may use that the call has returned the value. -/
theorem keeps_call_bind_of {β : Type} {f : σ → Reply σ α} {next : α → Approval σ β}
    (hcall : Keeps Inv (call f))
    (h : ∀ w a, Inv w → (f w.db.rest).result = .ok a → Keeps Inv (next a)) :
    Keeps Inv (call f >>= next) := by
  intro w hw
  have hafter : Inv (w.after (f w.db.rest)) := hcall w hw
  cases hresult : (f w.db.rest).result with
  | ok a =>
    have hrun : call f w = (.ok a, w.after (f w.db.rest)) := Prod.ext hresult rfl
    rw [bind_of_ok hrun]
    exact h w a hw hresult _ hafter
  | error e =>
    have hrun : call f w = (.error e, w.after (f w.db.rest)) := Prod.ext hresult rfl
    rw [bind_of_error hrun]
    exact hafter

/-- A WhatsApp message is a decision on the request it names, when that is there. -/
theorem keeps_applyMessage_of {message : ParsedWhatsAppMessage} (h : ∀ id, messageRequest p message = some id →
      Keeps Inv (applyIntent p now id message.intent message.feedback)) :
    Keeps Inv (applyMessage p now message) := by
  unfold applyMessage
  cases hid : messageRequest p message with
  | none => exact keeps_pure ()
  | some id =>
    refine keeps_read_bind fun w _ ↦ ?_
    cases w.request id with
    | none => exact keeps_pure ()
    | some request => exact h id hid

/-- The messages of an inbox row that is still to be processed. -/
def inboxMessages (p : Platform σ) (inboxId : ℕ) (w : World σ) : List ParsedWhatsAppMessage :=
  match w.db.inbox.find inboxId with
  | none => []
  | some inbox =>
    if inbox.status ≠ "received" ∨ ¬ p.isJson inbox.raw then []
    else
      match p.whatsappParser inbox.tenantId w.db.rest with
      | .error _ => []
      | .ok parse =>
        match parse inbox.raw with
        | .error _ => []
        | .ok messages => messages

/-- The session in which the messages of an inbox row are applied. -/
def World.processing (w : World σ) (inboxId : ℕ) : World σ :=
  { w with db := { w.db with
      inbox := w.db.inbox.modify inboxId fun inbox ↦ { inbox with status := "processing" } } }

/-- The message of the inbox row has its turn in the state `w₁`. -/
def HasTurn (p : Platform σ) (now : Time) (inboxId : ℕ) (w : World σ) (message : ParsedWhatsAppMessage)
    (w₁ : World σ) : Prop :=
  ∃ before after, inboxMessages p inboxId w = before ++ message :: after ∧
    forEach before (applyMessage p now) (w.processing inboxId) = (.ok (), w₁)

theorem HasTurn.mem {inboxId : ℕ} {w w₁ : World σ} {message : ParsedWhatsAppMessage}
    (h : HasTurn p now inboxId w message w₁) : message ∈ inboxMessages p inboxId w := by
  obtain ⟨before, after, hmessages, -⟩ := h
  rw [hmessages]
  exact mem_append_right before mem_cons_self

/-- An inbox row is its messages, one after the other. -/
theorem triple_processWebhookInbox_of {inboxId : ℕ} {w : World σ} (hw : Inv w)
    (hcommit : Keeps Inv commit) (hinbox : ∀ f, Keeps Inv (updateInbox inboxId f))
    (h : ∀ message w₁, HasTurn p now inboxId w message w₁ → Inv w₁ →
      Inv (applyMessage p now message w₁).2) :
    Triple (fun s ↦ s = w) (processWebhookInbox p now inboxId) (fun _ ↦ Inv) Inv := by
  have hpre : ∀ s, s = w → Inv s := at_state hw
  refine triple_read_bind fun s hs ↦ ?_
  subst hs
  cases hfound : s.db.inbox.find inboxId with
  | none => exact triple_pure hpre
  | some inbox =>
    refine triple_ite (fun _ ↦ triple_pure hpre) fun hreceived ↦ triple_ite (fun _ ↦ ?_) fun hjson ↦ ?_
    · exact triple_bind (m := fun _ ↦ Inv) (triple_modify fun w hw ↦ hinbox _ w (hpre w hw)) fun _ ↦
        hcommit.triple
    · refine triple_readOr_bind (fun s _ hs _ ↦ hpre s hs) fun s' parse hs hparse ↦ ?_
      subst hs
      refine triple_bind (m := fun _ t ↦ t = s'.processing inboxId)
        (triple_modify (by rintro _ rfl; rfl)) fun _ ↦ ?_
      refine triple_bind (m := fun _ ↦ Inv) (triple_tryCatch (m := Inv) ?_ fun exc ↦ ?_) fun _ ↦
        Keeps.triple (keeps_bind (hinbox _) fun _ ↦ hcommit)
      · rintro _ rfl
        have hstart : Inv (s'.processing inboxId) := hinbox _ s' hw
        have hfold : Inv (applyMessages p now parse inbox.raw (s'.processing inboxId)).2 := by
          unfold applyMessages
          cases hmessages : parse inbox.raw with
          | error exc => exact hstart
          | ok messages =>
            refine forEach_turns hstart fun before message after s₁ hsplit hturn ↦
              h message s₁ ⟨before, after, ?_, hturn⟩
            unfold inboxMessages
            rw [hfound]
            dsimp only
            rw [if_neg (not_or.mpr ⟨hreceived, hjson⟩)]
            simp only [hparse, hmessages]
            exact hsplit
        cases hresult : applyMessages p now parse inbox.raw (s'.processing inboxId) with
        | mk result t =>
          rw [hresult] at hfold
          cases result <;> exact hfold
      · exact Keeps.triple (keeps_bind (hinbox _) fun _ ↦ keeps_bind hcommit fun _ ↦ keeps_raise exc)

end Invariant

/-! ### The request that is followed -/

/-- The row of the request in the session and the one that is committed. -/
def Tracked (r : ℕ) (P Q : List ServiceCall → ApprovalRequest → Prop) (w : World σ) : Prop :=
  (∃ row, w.request r = some row ∧ P w.calls row) ∧
    ∃ row, w.stored.requests.find r = some row ∧ Q w.calls row

/-- What sending a request does to its row leaves `P` as it is. -/
structure Sendable (P : List ServiceCall → ApprovalRequest → Prop) : Prop where
  refresh : ∀ calls row recipient approvalType entityType entityId expiresAt, P calls row →
    P calls
      { row with
        status := .pending, recipient := recipient, approvalType := approvalType
        relatedEntityType := entityType, relatedEntityId := entityId, expiresAt := expiresAt }
  channel : ∀ calls row channel, P calls row → P calls { row with channel := channel }
  merge : ∀ calls row prior risk, P calls row → risk.get "workflow" = none →
    P calls { row with responsePayloadJson := mergedPayload prior row.responsePayloadJson risk }
  topic : ∀ calls row patch, P calls row → patch.get "workflow" = none →
    P calls { row with responsePayloadJson := row.responsePayloadJson.update patch }

/-- What happens on behalf of other requests leaves `P` as it is. -/
structure Watch (p : Platform σ) (r : ℕ) (P : List ServiceCall → ApprovalRequest → Prop) : Prop where
  note : ∀ call calls row, call.requestId ≠ r → P calls row → P (calls ++ [call]) row
  revised : ∀ tenantId job feedback channel rest revised calls row,
    (p.regenerateWithFeedback tenantId job feedback channel rest).result = .ok revised →
      P calls row → row.contentJobId = some revised → Sendable P

variable {p : Platform σ} {r : ℕ} {P P' Q : List ServiceCall → ApprovalRequest → Prop} {w : World σ}

theorem Tracked.update (h : Tracked r P Q w)
    (hf : id = r → ∀ calls row, P calls row → P calls (f row)) : Tracked r P Q (w.update id f) := by
  obtain ⟨⟨row, hrow, hP⟩, hstored⟩ := h
  refine ⟨?_, hstored⟩
  by_cases hid : id = r
  · subst hid
    exact ⟨f row, request_update_of hrow, hf rfl _ row hP⟩
  · exact ⟨row, (request_update_of_ne w f (Ne.symm hid)).trans hrow, hP⟩

/-- A change of the row that leads from one condition to another one. -/
theorem Tracked.step (h : Tracked r P Q w)
    (hf : ∀ calls row, P calls row → P' calls (f row)) : Tracked r P' Q (w.update r f) := by
  obtain ⟨⟨row, hrow, hP⟩, hstored⟩ := h
  exact ⟨⟨f row, request_update_of hrow, hf _ row hP⟩, hstored⟩

theorem Tracked.create (h : Tracked r P Q w) (request : ApprovalRequest) :
    Tracked r P Q (w.create request) := by
  obtain ⟨⟨row, hrow, hP⟩, hstored⟩ := h
  exact ⟨⟨row, request_create w request hrow, hP⟩, hstored⟩

theorem Tracked.after (h : Tracked r P P w) (reply : Reply σ α) : Tracked r P P (w.after reply) := by
  refine ⟨h.1, ?_⟩
  unfold World.after
  cases reply.committed with
  | none => exact h.2
  | some rest => exact h.1

theorem Tracked.commit (h : Tracked r P Q w) (hPQ : ∀ calls row, P calls row → Q calls row) :
    Tracked r P Q { w with stored := w.db } := by
  obtain ⟨⟨row, hrow, hP⟩, -⟩ := h
  exact ⟨⟨row, hrow, hP⟩, ⟨row, hrow, hPQ _ row hP⟩⟩

/-- A call that commits nothing itself. -/
theorem after_of_uncommitted {reply : Reply σ α} (h : reply.committed = none) :
    w.after reply = { w with db := { w.db with rest := reply.rest } } := by
  unfold World.after
  rw [h]

/-- A call from a known state. -/
theorem triple_call_bind {β : Type} {f : σ → Reply σ α} {next : α → Approval σ β}
    {post : β → World σ → Prop} {err : World σ → Prop}
    (hok : ∀ a, (f w.db.rest).result = .ok a →
      Triple (fun s ↦ s = w.after (f w.db.rest)) (next a) post err)
    (herror : ∀ exc, (f w.db.rest).result = .error exc → err (w.after (f w.db.rest))) :
    Triple (fun s ↦ s = w) (call f >>= next) post err := by
  rintro s rfl
  cases hresult : (f s.db.rest).result with
  | ok a =>
    have hcall : call f s = (.ok a, s.after (f s.db.rest)) := Prod.ext hresult rfl
    rw [bind_of_ok hcall]
    exact hok a hresult _ rfl
  | error exc =>
    have hcall : call f s = (.error exc, s.after (f s.db.rest)) := Prod.ext hresult rfl
    rw [bind_of_error hcall]
    exact herror exc hresult

/-! ### The elementary actions -/

theorem keeps_ask (f : σ → Except PyException α) : Keeps (Tracked r P Q) (ask f) := fun _ hw ↦ hw

theorem keeps_touch (f : σ → σ) : Keeps (Tracked r P Q) (touch f) := fun _ hw ↦ hw

theorem keeps_commit : Keeps (Tracked r P P) (commit (σ := σ)) := fun _ hw ↦ hw.commit fun _ _ hP ↦ hP

theorem keeps_call (f : σ → Reply σ α) : Keeps (Tracked r P P) (call f) := fun _ hw ↦ hw.after _

theorem keeps_updateRequest
    (h : id = r → ∀ calls row, P calls row → P calls (f row)) :
    Keeps (Tracked (σ := σ) r P Q) (updateRequest id f) := fun _ hw ↦ hw.update h

theorem keeps_note {call : ServiceCall} (hP : ∀ calls row, P calls row → P (calls ++ [call]) row)
    (hQ : ∀ calls row, Q calls row → Q (calls ++ [call]) row) :
    Keeps (Tracked (σ := σ) r P Q) (note call) := by
  rintro w ⟨⟨row, hrow, hProw⟩, ⟨row', hrow', hQrow⟩⟩
  exact ⟨⟨row, hrow, hP _ row hProw⟩, ⟨row', hrow', hQ _ row' hQrow⟩⟩

theorem keeps_updateInbox (inboxId : ℕ) (f : WebhookInbox → WebhookInbox) :
    Keeps (Tracked (σ := σ) r P Q) (updateInbox inboxId f) := fun _ hw ↦ hw

theorem keeps_setRevisionSession (now : Time) (chatId : String) (id : ℕ) :
    Keeps (Tracked (σ := σ) r P Q) (setRevisionSession now chatId id) :=
  keeps_ite (fun _ ↦ keeps_pure ()) fun _ _ hw ↦ hw

theorem keeps_markJobClusterState (request : ApprovalRequest) (state : String) :
    Keeps (Tracked r P Q) (markJobClusterState p request state) := by
  unfold markJobClusterState
  cases request.contentJobId with
  | none => exact keeps_pure ()
  | some job => exact keeps_touch _

/-! ### Sending -/

/-- The request that is sent is another one, or sending leaves `P` as it is. -/
def Harmless (r : ℕ) (P : List ServiceCall → ApprovalRequest → Prop) (id : ℕ) : Prop := id = r → Sendable P

/-- The request that is refreshed or created satisfies `H`, when `H` allows every new request. -/
theorem triple_createOrRefreshRequest {H : ℕ → Prop} {pre : World σ → Prop}
    {contentJobId : Option ℕ} {recipient approvalType : String}
    {relatedEntityType relatedEntityId : Option String} {expiresAt : Time}
    (hpre : ∀ w, pre w → Tracked r P Q w)
    (h : ∀ w, pre w → ∀ id, w.requestToRefresh tenantId contentJobId approvalType relatedEntityType
      relatedEntityId = some id → H id)
    (hnew : ∀ id, id ≠ r → H id)
    (hrefresh : ∀ id, H id → id = r → ∀ calls row, P calls row → P calls
      { row with
        status := .pending, recipient := recipient, approvalType := approvalType
        relatedEntityType := relatedEntityType, relatedEntityId := relatedEntityId
        expiresAt := some expiresAt }) :
    Triple pre
      (createOrRefreshRequest tenantId contentJobId recipient approvalType relatedEntityType
        relatedEntityId expiresAt)
      (fun id w ↦ Tracked r P Q w ∧ H id) (Tracked r P Q) := by
  refine triple_read_bind fun w hw ↦ ?_
  cases hfound : w.requestToRefresh tenantId contentJobId approvalType relatedEntityType
      relatedEntityId with
  | some id =>
    have hid := h w hw id hfound
    refine triple_bind (m := fun _ w ↦ Tracked r P Q w) (triple_modify fun w hw ↦ ?_) fun _ ↦
      triple_pure fun w hw ↦ ⟨hw, hid⟩
    exact (hpre w hw).update (hrefresh id hid)
  | none =>
    refine triple_read_bind fun w hw ↦ ?_
    have hne : w.nextId ≠ r := by
      rintro rfl
      obtain ⟨⟨row, hrow, -⟩, -⟩ := hpre w hw
      exact absurd (hrow.symm.trans (request_nextId w)) (some_ne_none row)
    exact triple_bind (m := fun _ w ↦ Tracked r P Q w)
      (triple_modify fun w hw ↦ (hpre w hw).create _) fun _ ↦ triple_pure fun w hw ↦ ⟨hw, hnew _ hne⟩

theorem harmless_of_ne (h : id ≠ r) : Harmless r P id := fun heq ↦ absurd heq h

theorem keeps_deliverAll (h : Harmless r P id)
    (channels : List String) : Keeps (Tracked r P Q) (deliverAll p tenantId id contentJobId channels) :=
  keeps_deliverAll_of (fun name ↦ keeps_updateRequest fun heq calls row hP ↦
    (h heq).channel calls row name hP) tenantId contentJobId channels

theorem get_riskPayload (grounding : Json) :
    (riskPayloadForJob p grounding).get "workflow" = none := rfl

/-- `send_for_approval`: the request it returns is the one it has refreshed or a new one. -/
theorem triple_sendForApproval {H : ℕ → Prop} {pre : World σ → Prop} {channels : List String} {deliver : Bool}
    (hpre : ∀ w, pre w → Tracked r P Q w)
    (h : ∀ w, pre w → ∀ id, w.requestForContentJob contentJobId = some id → H id)
    (hnew : ∀ id, id ≠ r → H id) (hharmless : ∀ id, H id → Harmless r P id) :
    Triple pre (sendForApproval p now tenantId contentJobId recipient channels deliver)
      (fun id w ↦ Tracked r P Q w ∧ H id) (Tracked r P Q) := by
  refine triple_bind (triple_readOr hpre) fun configured ↦ triple_ite (fun _ ↦ triple_raise hpre) fun _ ↦ ?_
  refine triple_read_bind fun w hw ↦ ?_
  cases p.groundingBundle tenantId contentJobId w.db.rest with
  | none => exact triple_raise hpre
  | some grounding =>
    refine triple_ite (fun _ ↦ triple_raise hpre) fun _ ↦ triple_read_bind fun w hw ↦ ?_
    refine triple_bind (triple_createOrRefreshRequest hpre h hnew
      fun id hid heq calls row hP ↦ (hharmless id hid heq).refresh calls row _ _ _ _ _ hP) fun id ↦ ?_
    refine triple_of_pure fun hid ↦ ?_
    have hsent := hharmless id hid
    refine triple_bind (m := fun _ w ↦ Tracked r P Q w) ?_ fun _ ↦ ?_
    · exact triple_ite (fun _ ↦ (keeps_deliverAll hsent _).triple) fun _ ↦ (keeps_pure ()).triple
    refine triple_bind (m := fun _ w ↦ Tracked r P Q w) (Keeps.triple ?_) fun _ ↦ ?_
    · exact keeps_updateRequest fun heq calls row hP ↦
        (hsent heq).merge calls row _ _ hP (get_riskPayload grounding)
    · exact triple_bind (Keeps.triple (keeps_touch _)) fun _ ↦ triple_pure fun w hw ↦ ⟨hw, hid⟩

theorem keeps_sendTopicForApproval {candidateId : String}
    (h : Sendable P) : Keeps (Tracked r P Q) (sendTopicForApproval p now tenantId candidateId recipient) := by
  refine keeps_read_bind fun w _ ↦ ?_
  cases p.scoreExplanation tenantId candidateId w.db.rest with
  | none => exact keeps_raise _
  | some explanation =>
    refine keeps_bind (keeps_ask _) fun ⟨chatId, configured⟩ ↦ keeps_bind ?_ fun id ↦ ?_
    · refine Triple.keeps ((triple_createOrRefreshRequest (H := fun _ ↦ True) (fun _ hw ↦ hw)
        (fun _ _ _ _ ↦ trivial) (fun _ _ ↦ trivial) ?_).mono (fun _ hw ↦ hw) (fun _ _ hw ↦ hw.1)
        fun _ hw ↦ hw)
      exact fun _ _ _ calls row hP ↦ h.refresh calls row _ _ _ _ _ hP
    · refine keeps_ite (fun _ ↦ keeps_raise _) fun _ ↦ ?_
      refine keeps_bind (keeps_ask _) fun _ ↦ keeps_bind ?_ fun _ ↦ keeps_pure _
      exact keeps_updateRequest fun _ calls row hP ↦ h.topic calls row _ hP rfl

theorem triple_sendPublishForApproval {pre : World σ → Prop} {platforms : List String} {scheduledFor : Option Time}
    (hpre : ∀ w, pre w → Tracked r P Q w)
    (h : ∀ w, pre w → w.requestForContentJob contentJobId ≠ some r) :
    Triple pre (sendPublishForApproval p now tenantId contentJobId platforms scheduledFor recipient)
      (fun _ ↦ Tracked r P Q) (Tracked r P Q) := by
  refine triple_bind (triple_readOr hpre) fun ⟨chatId, configured⟩ ↦ triple_read_bind fun w hw ↦ ?_
  cases p.groundingBundle tenantId contentJobId w.db.rest with
  | none => exact triple_raise hpre
  | some grounding =>
    refine triple_ite (fun _ ↦ triple_raise hpre) fun _ ↦ ?_
    refine triple_bind (triple_createOrRefreshRequest (H := fun id ↦ id ≠ r) hpre ?_ (fun _ hid ↦ hid)
      fun _ hid heq ↦ absurd heq hid) fun id ↦ triple_of_pure fun hid ↦ Keeps.triple ?_
    · rintro w hw id hfound rfl
      exact h w hw hfound
    · refine keeps_bind (keeps_updateRequest fun heq ↦ absurd heq hid) fun _ ↦ ?_
      refine keeps_ite (fun _ ↦ keeps_raise _) fun _ ↦ ?_
      exact keeps_bind (keeps_ask _) fun _ ↦ keeps_pure _

/-! ### Decisions on other requests -/

/-- A request that is bound to no node resumes nothing, and nothing is raised. -/
theorem maybeResume_of_unbound (hrow : w.request id = some request)
    (hbinding : getWorkflowBinding request = none) : maybeResumeWorkflowFromApproval p id w = (.ok (), w) := by
  refine (bind_of_ok (show getRequestById id w = (.ok (some request), w) from
    congrArg (fun found ↦ (Except.ok found, w)) hrow)).trans ?_
  dsimp only
  rw [hbinding]
  rfl

/-- A call on behalf of any request, when `P` does not mind it. -/
theorem keeps_callFor {made returned : ServiceCall} {f : σ → Reply σ Unit}
    (hmade : ∀ calls row, P calls row → P (calls ++ [made]) row)
    (hreturned : ∀ calls row, P calls row → P (calls ++ [returned]) row) :
    Keeps (Tracked r P P) (callFor made returned f) :=
  keeps_bind (keeps_note hmade hmade) fun _ ↦ keeps_bind (keeps_call f) fun _ ↦ keeps_note hreturned hreturned

theorem keeps_maybeResume_of_ne (hwatch : Watch p r P) (hid : id ≠ r) :
    Keeps (Tracked r P P) (maybeResumeWorkflowFromApproval p id) :=
  keeps_maybeResume_of fun _ _ _ _ _ _ _ ↦
    keeps_callFor (fun calls row ↦ hwatch.note _ calls row hid) fun calls row ↦ hwatch.note _ calls row hid

theorem keeps_applyApprove_of_ne (hwatch : Watch p r P) (hid : id ≠ r) :
    Keeps (Tracked r P P) (applyApprove p id) :=
  keeps_applyApprove_of (keeps_updateRequest fun heq ↦ absurd heq hid) (fun _ _ ↦ keeps_touch _)
    fun _ _ _ _ _ ↦ keeps_callFor (fun calls row ↦ hwatch.note _ calls row hid)
      fun calls row ↦ hwatch.note _ calls row hid

/-- What follows a call may use that the call has returned the value. -/
theorem keeps_call_bind {β : Type} {f : σ → Reply σ α} {next : α → Approval σ β}
    (h : ∀ rest a, (f rest).result = .ok a → Keeps (Tracked r P P) (next a)) :
    Keeps (Tracked r P P) (call f >>= next) :=
  keeps_call_bind_of (keeps_call f) fun w a _ hresult ↦ h w.db.rest a hresult

/-- `_apply_revise` after its checks: what it does to the request itself is `hself`. -/
theorem keeps_reviseContent (hwatch : Watch p r P)
    (hself : id = r → ∀ calls row revised, P calls row →
      P calls (stampWorkflowBinding (getWorkflowBinding request)
        { row with contentJobId := some revised, status := .pending }) ∧
      P calls (stampWorkflowBinding (getWorkflowBinding request) row)) :
    Keeps (Tracked r P P) (reviseContent p now id feedback request job) := by
  refine keeps_bind (keeps_touch _) fun _ ↦ keeps_call_bind fun rest revised hrevised ↦ ?_
  refine keeps_bind (keeps_updateRequest fun heq calls row hP ↦ (hself heq calls row revised hP).1) fun _ ↦ ?_
  have hsend : ∀ channels : List String, Keeps (Tracked r P P) (do
      let _ ← sendForApproval p now request.tenantId revised (some request.recipient) channels true
      updateRequest id (stampWorkflowBinding (getWorkflowBinding request))) := by
    intro channels
    refine Triple.keeps (triple_bind (triple_sendForApproval (H := Harmless r P) (fun _ hw ↦ hw) ?_
      (fun _ ↦ harmless_of_ne) fun _ hid ↦ hid) fun sent ↦
        triple_of_keeps (fun _ hw ↦ hw.1) (keeps_updateRequest ?_))
    · rintro w ⟨⟨row, hrow, hP⟩, -⟩ found hfound rfl
      obtain ⟨row', hrow', hjob⟩ := exists_of_requestForContentJob hfound
      obtain rfl : row = row' := mem_unique hrow hrow'
      exact hwatch.revised _ _ _ _ rest revised _ row hrevised hP hjob
    · exact fun heq calls row hP ↦ (hself heq calls row revised hP).2
  cases (getWorkflowBinding request).map bindingChannels with
  | none => exact hsend _
  | some channels =>
    cases channels with
    | none => exact keeps_raise _
    | some items => exact hsend _

theorem keeps_applyRevise_of_ne (hwatch : Watch p r P)
    (hid : id ≠ r) : Keeps (Tracked r P P) (applyRevise p now id feedback) :=
  keeps_applyRevise_of (keeps_updateRequest fun heq ↦ absurd heq hid)
    (keeps_updateRequest fun heq ↦ absurd heq hid)
    fun _ _ _ _ _ ↦ keeps_reviseContent hwatch fun heq ↦ absurd heq hid

theorem keeps_applyReject_of_ne (hid : id ≠ r) : Keeps (Tracked r P Q) (applyReject p id) :=
  keeps_applyReject_of (keeps_updateRequest fun heq ↦ absurd heq hid) fun _ _ ↦ keeps_touch _

/-- A decision on another request keeps the request that is followed. -/
theorem keeps_applyIntent_of_ne {feedback : Option String} (hwatch : Watch p r P) (hid : id ≠ r) :
    Keeps (Tracked r P P) (applyIntent p now id intent feedback) :=
  keeps_applyIntent_of (keeps_applyApprove_of_ne hwatch hid)
    (fun _ ↦ keeps_applyRevise_of_ne hwatch hid) (keeps_applyReject_of_ne hid)
    (keeps_maybeResume_of_ne hwatch hid)

/-! ### Telegram -/

/-- The handler of an intent. -/
theorem dispatchIntent_cases {handler : Approval σ Unit}
    (h : dispatchIntent p now id request intent chatId cbChatId = some handler) :
    (intent ∈ ["approve", "approve_topic", "approve_publish"] ∧ handler = handleApprove p now id request) ∨
    (intent ∈ ["reject", "reject_topic"] ∧ handler = handleReject p now id request) ∨
    (intent = "revise" ∧ handler = handleRevise p now id request chatId) ∨
    (intent ∈ ["trim", "edit_cta"] ∧ handler = handleTrimOrCta now id request cbChatId intent) ∨
    (intent = "publish_gate" ∧
      ∃ job, request.contentJobId = some job ∧ handler = handlePublishGate p now request job) ∨
    (intent ∈ ["hold_topic", "hold_publish"] ∧ handler = handleHold id) ∨
    (intent = "cancel_publish" ∧ handler = handleCancelPublish id) ∨
    (intent = "schedule_publish" ∧ handler = handleSchedulePublish p now id request) ∨
    ((pyStartsWith "approve_" intent ∧ request.approvalType = "publish") ∧
      handler = handleApprovePlatform p now id request intent) ∨
    (intent ∈ ["safer_topic", "regen_topic"] ∧ handler = handleSaferTopic id intent) := by
  unfold dispatchIntent at h
  split_ifs at h with h1 h2 h3 h4 h5 h6 h7 h8 h9 h10
  · exact .inl ⟨h1, (Option.some.inj h).symm⟩
  · exact .inr (.inl ⟨h2, (Option.some.inj h).symm⟩)
  · exact .inr (.inr (.inl ⟨h3, (Option.some.inj h).symm⟩))
  · exact .inr (.inr (.inr (.inl ⟨h4, (Option.some.inj h).symm⟩)))
  · obtain ⟨job, hjob, rfl⟩ := map_eq_some_iff.mp h
    exact .inr (.inr (.inr (.inr (.inl ⟨h5, job, hjob, rfl⟩))))
  · exact .inr (.inr (.inr (.inr (.inr (.inl ⟨h6, (Option.some.inj h).symm⟩)))))
  · exact .inr (.inr (.inr (.inr (.inr (.inr (.inl ⟨h7, (Option.some.inj h).symm⟩))))))
  · exact .inr (.inr (.inr (.inr (.inr (.inr (.inr (.inl ⟨h8, (Option.some.inj h).symm⟩)))))))
  · exact .inr (.inr (.inr (.inr (.inr (.inr (.inr (.inr (.inl ⟨h9, (Option.some.inj h).symm⟩))))))))
  · exact .inr (.inr (.inr (.inr (.inr (.inr (.inr (.inr (.inr ⟨h10, (Option.some.inj h).symm⟩))))))))

theorem keeps_setStatus_of_ne (hid : id ≠ r) (status : ApprovalStatus) :
    Keeps (Tracked (σ := σ) r P Q) (setStatus id status) := keeps_updateRequest fun heq ↦ absurd heq hid

theorem keeps_setPayload_of_ne (hid : id ≠ r) (payload : JsonObject) :
    Keeps (Tracked (σ := σ) r P Q) (setPayload id payload) := keeps_updateRequest fun heq ↦ absurd heq hid

theorem keeps_decideTopic_of_ne
    {entityId candidateStatus decision : String} {status : ApprovalStatus} (hid : id ≠ r) :
    Keeps (Tracked r P Q) (decideTopic p id request entityId candidateStatus status decision) :=
  keeps_ite (fun _ ↦ keeps_raise _) fun _ ↦ keeps_bind (keeps_touch _) fun _ ↦
    keeps_bind (keeps_setStatus_of_ne hid _) fun _ ↦ keeps_setPayload_of_ne hid _

theorem triple_handlePublishGate {pre : World σ → Prop}
    (hpre : ∀ w, pre w → Tracked r P Q w) (h : ∀ w, pre w → w.requestForContentJob job ≠ some r) :
    Triple pre (handlePublishGate p now request job) (fun _ ↦ Tracked r P Q) (Tracked r P Q) :=
  triple_read_bind fun _ _ ↦ triple_bind (triple_sendPublishForApproval hpre h) fun _ ↦
    (keeps_pure ()).triple

/-- The handler of a button on the card of another request. -/
theorem triple_dispatchIntent_of_ne {pre : World σ → Prop} {handler : Approval σ Unit}
    (hhandler : dispatchIntent p now id request intent chatId cbChatId = some handler)
    (hwatch : Watch p r P) (hid : id ≠ r) (hpre : ∀ w, pre w → Tracked r P P w)
    (hgate : intent = "publish_gate" → ∀ job, request.contentJobId = some job →
      ∀ w, pre w → w.requestForContentJob job ≠ some r) :
    Triple pre handler (fun _ ↦ Tracked r P P) (Tracked r P P) := by
  have hstatus := fun status ↦ keeps_setStatus_of_ne (σ := σ) (P := P) (Q := P) hid status
  have hpayload := fun payload ↦ keeps_setPayload_of_ne (σ := σ) (P := P) (Q := P) hid payload
  rcases dispatchIntent_cases hhandler with ⟨-, rfl⟩ | ⟨-, rfl⟩ | ⟨-, rfl⟩ | ⟨-, rfl⟩ |
    ⟨hintent, job, hjob, rfl⟩ | ⟨-, rfl⟩ | ⟨-, rfl⟩ | ⟨-, rfl⟩ | ⟨-, rfl⟩ | ⟨-, rfl⟩
  · refine triple_of_keeps hpre ?_
    unfold handleApprove
    cases request.topicEntity with
    | some entityId => exact keeps_decideTopic_of_ne hid
    | none =>
      refine keeps_tryCatch (keeps_bind (keeps_applyIntent_of_ne hwatch hid) fun _ ↦ ?_) fun _ ↦ keeps_pure ()
      exact keeps_ite (fun _ ↦ keeps_markJobClusterState _ _) fun _ ↦ keeps_pure ()
  · refine triple_of_keeps hpre ?_
    unfold handleReject
    cases request.topicEntity with
    | some entityId => exact keeps_decideTopic_of_ne hid
    | none => exact keeps_bind (keeps_applyIntent_of_ne hwatch hid) fun _ ↦ keeps_markJobClusterState _ _
  · exact triple_of_keeps hpre (keeps_bind (keeps_setRevisionSession _ _ _) fun _ ↦
      keeps_bind (hstatus _) fun _ ↦ keeps_markJobClusterState _ _)
  · exact triple_of_keeps hpre (keeps_bind (keeps_setRevisionSession _ _ _) fun _ ↦
      keeps_bind (hstatus _) fun _ ↦ hpayload _)
  · exact triple_handlePublishGate hpre (hgate hintent job hjob)
  · exact triple_of_keeps hpre (keeps_bind (hstatus _) fun _ ↦ hpayload _)
  · exact triple_of_keeps hpre (keeps_bind (hstatus _) fun _ ↦ hpayload _)
  · exact triple_of_keeps hpre (keeps_bind (hstatus _) fun _ ↦ hpayload _)
  · exact triple_of_keeps hpre (keeps_bind (hpayload _) fun _ ↦ keeps_applyIntent_of_ne hwatch hid)
  · exact triple_of_keeps hpre (keeps_bind (hstatus _) fun _ ↦ hpayload _)

theorem triple_handleTelegramCallback {pre err : World σ → Prop} {data : String}
    (hpre : ∀ w, pre w → Tracked r P P w) (herr : ∀ w, Tracked r P P w → err w)
    (h : ∀ w intent identifier id request chatId handler,
      verifySignedCallbackData p data = (true, intent, identifier) → p.parseUuid identifier = some id →
      pre w → w.request id = some request →
      dispatchIntent p now id request intent chatId cbChatId = some handler →
      Triple pre handler (fun _ ↦ Tracked r P P) err) :
    Triple pre (handleTelegramCallback p now data cbChatId) (fun _ ↦ Tracked r P P) err := by
  unfold handleTelegramCallback
  cases hverify : verifySignedCallbackData p data with
  | mk valid rest =>
    obtain ⟨intent, identifier⟩ := rest
    cases valid with
    | false => exact (triple_of_keeps hpre keeps_commit).mono (fun _ hs ↦ hs) (fun _ _ hs ↦ hs) herr
    | true =>
      dsimp only
      cases hparse : p.parseUuid identifier with
      | none => exact triple_pure hpre
      | some id =>
        refine triple_read_bind fun w hw ↦ ?_
        cases hrequest : w.request id with
        | none => exact triple_pure hpre
        | some request =>
          refine triple_read_bind fun w' _ ↦ ?_
          cases hhandler : dispatchIntent p now id request intent
              (resolveTelegramChat p request cbChatId w'.db.rest) cbChatId with
          | none => exact triple_pure hpre
          | some handler =>
            exact triple_bind (h w intent identifier id request _ handler hverify hparse hw hrequest hhandler)
              fun _ ↦ keeps_commit.triple.mono (fun _ hs ↦ hs) (fun _ _ hs ↦ hs) herr

/-- A message in a chat changes nothing. -/
theorem keeps_handleTelegramMessage (chatId text : String) {Inv : World σ → Prop} :
    Keeps Inv (handleTelegramMessage now chatId text) := by
  refine keeps_ite (fun _ ↦ keeps_pure _) fun _ ↦ keeps_read_bind fun w _ ↦ ?_
  cases w.pendingRevision now chatId with
  | none | some id => exact keeps_pure _

/-! ### WhatsApp -/

theorem keeps_handleWebhook (raw : String) : Keeps (Tracked r P P) (handleWebhook p raw) := by
  refine keeps_bind (keeps_ask _) fun tenantId ↦ keeps_bind (keeps_modify fun s hs ↦ ?_) fun _ ↦ keeps_commit
  split_ifs
  · exact hs
  · exact hs

theorem triple_processWebhookInbox {inboxId : ℕ} (hw : Tracked r P P w)
    (h : ∀ message w₁, HasTurn p now inboxId w message w₁ → Tracked r P P w₁ →
      Tracked r P P (applyMessage p now message w₁).2) :
    Triple (fun s ↦ s = w) (processWebhookInbox p now inboxId) (fun _ ↦ Tracked r P P) (Tracked r P P) :=
  triple_processWebhookInbox_of hw keeps_commit (keeps_updateInbox inboxId) h

/-! ### Operations -/

/-- What is committed after the transaction of a handler. -/
theorem Tracked.transaction {handler : Approval σ α} (h : Tracked r P P (handler w).2) :
    Tracked r P P ((transaction handler).final w) := by
  obtain ⟨hdb, hstored⟩ := h
  unfold Action.final Approvals.transaction
  cases hresult : handler w with
  | mk result w' =>
    rw [hresult] at hdb hstored
    cases result with
    | ok a => exact ⟨hdb, hdb⟩
    | error e => exact ⟨hstored, hstored⟩

end ContentGenerator.Approvals
