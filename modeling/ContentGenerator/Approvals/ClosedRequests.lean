import ContentGenerator.Approvals.Bindings

/-!
# Rejected and expired requests

The messages of the channels look at no status: a button on an old card or a WhatsApp message can open a
request again. `KeepsClosed` is the condition that a message does not, and `closed_stays_closed` says that
under it a rejected or expired request is never approved or pending again and nothing is published for it.

What a message says about the request is compared with its row before the message, so inside an operation the
row has to stay as hard to revise as it was; this is what `Closed` carries besides the status.
-/

namespace ContentGenerator.Approvals

open Lib Lib.Action Workflows List Option

variable {calls : List ServiceCall} {intent : String} {status : ApprovalStatus} {now : Time}
  {row : ApprovalRequest} {σ : Type}

/-! ### The invariant of the row -/

/-- Neither approved nor pending, for the same content job, with nothing published; and a revision is still
refused if `refused`. -/
structure Closed (r : ℕ) (contentJobId : Option ℕ) (refused : Prop) (calls : List ServiceCall)
    (row : ApprovalRequest) : Prop where
  notApproved : row.status ≠ .approved
  notPending : row.status ≠ .pending
  job : row.contentJobId = contentJobId
  unpublished : .publishNow r ∉ calls
  refuses : refused → refusesRevision row = true

/-- The row of the request is closed in the session and where it is committed. -/
abbrev ClosedIn (r : ℕ) (contentJobId : Option ℕ) (refused : Prop) : World σ → Prop :=
  Tracked r (Closed r contentJobId refused) (Closed r contentJobId refused)

/-- Regenerated content is a new content job, not the one of the request. -/
def FreshJobs (p : Platform σ) (contentJobId : Option ℕ) : Prop :=
  ∀ tenantId job feedback channel rest revised,
    (p.regenerateWithFeedback tenantId job feedback channel rest).result = .ok revised →
      contentJobId ≠ some revised

variable {p : Platform σ} {r : ℕ} {contentJobId : Option ℕ} {refused : Prop} {w : World σ}

theorem Closed.note
    (h : Closed r contentJobId refused calls row) {call : ServiceCall} (hcall : call ≠ .publishNow r) :
    Closed r contentJobId refused (calls ++ [call]) row where
  notApproved := h.notApproved
  notPending := h.notPending
  job := h.job
  unpublished hmem := (mem_append.mp hmem).elim h.unpublished fun hnew ↦
    hcall (mem_singleton.mp hnew).symm
  refuses := h.refuses

/-- A new status, when it is closed as well. -/
theorem Closed.setStatus
    (h : Closed r contentJobId refused calls row)
    (hstatus : status ≠ .approved ∧ status ≠ .pending) :
    Closed r contentJobId refused calls { row with status := status } where
  notApproved := hstatus.1
  notPending := hstatus.2
  job := h.job
  unpublished := h.unpublished
  refuses := h.refuses

theorem watch_closed (hfresh : FreshJobs p contentJobId) : Watch p r (Closed r contentJobId refused) where
  note _ _ _ hcall h := h.note fun heq ↦ hcall (heq ▸ rfl)
  revised _ _ _ _ _ _ _ _ hrevised h hjob :=
    absurd (h.job.symm.trans hjob) (hfresh _ _ _ _ _ _ hrevised)

/-- A request that has been revised before is not easier to revise. -/
theorem refusesRevision_beginRevision (h : refusesRevision row = true) :
    refusesRevision row.beginRevision = true := by
  unfold refusesRevision at h ⊢
  rw [decide_eq_true_eq] at h ⊢
  rcases h with hbinding | hcount
  · exact .inl hbinding
  · exact .inr (hcount.trans (Nat.le_succ _))

/-! ### Which messages open a request -/

/-- The intent of a WhatsApp message or of revision notes opens the request. -/
def Reopens (request : ApprovalRequest) (intent : String) (feedback : Option String) : Prop :=
  intent = "approve" ∨
    (intent = "revise" ∧ (feedback.filter (· ≠ "")).isSome ∧ refusesRevision request = false ∧
      request.contentJobId.isSome)

/-- A button of a Telegram card that opens the request. -/
def ReopensButton (request : ApprovalRequest) (intent : String) : Prop :=
  intent ∈ ["approve", "approve_topic", "approve_publish", "revise", "trim", "edit_cta", "hold_topic",
      "hold_publish", "schedule_publish"] ∨
    (pyStartsWith "approve_" intent ∧ request.approvalType = "publish")

/-- The message does not open the request `r`. -/
def KeepsClosed (p : Platform σ) (r : ℕ) (w : World σ) : InboundMessage → Prop
  | .telegramCallback data _ => ∀ intent identifier id request,
    verifySignedCallbackData p data = (true, intent, identifier) → p.parseUuid identifier = some id →
      w.request id = some request →
        (id = r → ¬ ReopensButton request intent) ∧
          (intent = "publish_gate" → ∀ job, request.contentJobId = some job →
            w.requestForContentJob job ≠ some r)
  | .telegramMessage _ _ => True
  | .whatsappWebhook _ => True
  | .whatsappInbox inboxId => ∀ message ∈ inboxMessages p inboxId w, messageRequest p message = some r →
    ∀ row, w.request r = some row → ¬ Reopens row message.intent message.feedback

/-! ### The handlers -/

theorem keeps_setStatus_closed (h : status ≠ .approved ∧ status ≠ .pending)
    (id : ℕ) : Keeps (ClosedIn (σ := σ) r contentJobId refused) (setStatus id status) :=
  keeps_updateRequest fun _ _ _ hclosed ↦ hclosed.setStatus h

theorem keeps_applyReject (id : ℕ) : Keeps (ClosedIn r contentJobId refused) (applyReject p id) :=
  keeps_applyReject_of (keeps_setStatus_closed (by decide) id) fun _ _ ↦ keeps_touch _

/-- A revision of the request: it is refused, or there is no content to regenerate. -/
theorem keeps_applyRevise {feedback : String} (h : refused ∨ contentJobId = none) :
    Keeps (ClosedIn r contentJobId refused) (applyRevise p now r feedback) := by
  refine keeps_read_bind fun w hw ↦ ?_
  obtain ⟨⟨row, hrow, hclosed⟩, -⟩ := hw
  rw [hrow]
  refine keeps_ite (fun _ ↦ keeps_setStatus_closed (by decide) r) fun hnot ↦ ?_
  have hjob : row.contentJobId = none := by
    rw [hclosed.job]
    exact h.resolve_left fun hrefused ↦ hnot (hclosed.refuses hrefused)
  rw [hjob]
  refine keeps_bind (keeps_updateRequest fun _ _ row h ↦ ?_) fun _ ↦ keeps_pure ()
  exact ⟨nofun, nofun, h.job, h.unpublished, fun hrefused ↦ refusesRevision_beginRevision (h.refuses hrefused)⟩

/-- An intent that does not open the request. -/
theorem keeps_applyIntent_closed {feedback : Option String}
    (happrove : intent ≠ "approve")
    (hrevise : intent = "revise" → (feedback.filter (· ≠ "")).isSome → refused ∨ contentJobId = none) :
    Keeps (ClosedIn r contentJobId refused) (applyIntent p now r intent feedback) := by
  unfold applyIntent
  cases haction : intentAction p now r intent feedback with
  | none => exact keeps_pure ()
  | some action =>
    refine keeps_bind ?_ fun _ ↦ keeps_maybeResume_of fun _ _ _ _ _ _ _ ↦
      keeps_callFor (fun _ _ h ↦ h.note nofun) fun _ _ h ↦ h.note nofun
    unfold intentAction at haction
    split_ifs at haction with happrove' hrevise' hreject
    · exact absurd happrove' happrove
    · obtain ⟨text, htext, rfl⟩ := map_eq_some_iff.mp haction
      exact keeps_applyRevise (hrevise hrevise' (htext ▸ rfl))
    · cases haction
      exact keeps_applyReject r

theorem triple_dispatchIntent_closed {pre : World σ → Prop}
    {chatId cbChatId : String} {handler : Approval σ Unit}
    (hhandler : dispatchIntent p now r row intent chatId cbChatId = some handler)
    (hpre : ∀ w, pre w → ClosedIn r contentJobId False w) (hnot : ¬ ReopensButton row intent)
    (hgate : intent = "publish_gate" → ∀ job, row.contentJobId = some job →
      ∀ w, pre w → w.requestForContentJob job ≠ some r) :
    Triple pre handler (fun _ ↦ ClosedIn r contentJobId False) (ClosedIn r contentJobId False) := by
  have hpayload : ∀ payload : JsonObject,
      Keeps (ClosedIn (σ := σ) r contentJobId False) (setPayload r payload) := fun payload ↦
    keeps_updateRequest fun _ _ _ h ↦ ⟨h.notApproved, h.notPending, h.job, h.unpublished, False.elim⟩
  have hopens : ∀ {intents : List String}, intent ∈ intents →
      intents ⊆ ["approve", "approve_topic", "approve_publish", "revise", "trim", "edit_cta", "hold_topic",
        "hold_publish", "schedule_publish"] → False := fun hintent hsubset ↦ hnot (.inl (hsubset hintent))
  rcases dispatchIntent_cases hhandler with ⟨hintent, rfl⟩ | ⟨hintent, rfl⟩ | ⟨hintent, rfl⟩ |
    ⟨hintent, rfl⟩ | ⟨hintent, job, hjob, rfl⟩ | ⟨hintent, rfl⟩ | ⟨hintent, rfl⟩ | ⟨hintent, rfl⟩ |
    ⟨hintent, rfl⟩ | ⟨hintent, rfl⟩
  · exact (hopens hintent (by decide)).elim
  · refine triple_of_keeps hpre ?_
    unfold handleReject
    cases row.topicEntity with
    | some entityId =>
      exact keeps_ite (fun _ ↦ keeps_raise _) fun _ ↦ keeps_bind (keeps_touch _) fun _ ↦
        keeps_bind (keeps_setStatus_closed (by decide) r) fun _ ↦ hpayload _
    | none =>
      exact keeps_bind (keeps_applyIntent_closed (by decide) fun h ↦ absurd h (by decide)) fun _ ↦
        keeps_markJobClusterState _ _
  · exact (hopens (mem_singleton.mpr hintent) (by decide)).elim
  · exact (hopens hintent (by decide)).elim
  · exact triple_handlePublishGate hpre (hgate hintent job hjob)
  · exact (hopens hintent (by decide)).elim
  · exact triple_of_keeps hpre (keeps_bind (keeps_setStatus_closed (by decide) r) fun _ ↦ hpayload _)
  · exact (hopens (mem_singleton.mpr hintent) (by decide)).elim
  · exact absurd (.inr hintent) hnot
  · exact triple_of_keeps hpre (keeps_bind (keeps_setStatus_closed (by decide) r) fun _ ↦ hpayload _)

theorem triple_message {message : InboundMessage} (hfresh : FreshJobs p contentJobId)
    (hrow : w.request r = some row)
    (hw : ClosedIn r contentJobId (refusesRevision row = true) w) (hkeeps : KeepsClosed p r w message) :
    Triple (fun s ↦ s = w) (message.handler p now) (fun _ ↦ ClosedIn r contentJobId False)
      (ClosedIn r contentJobId False) := by
  have hforget : ∀ s : World σ, ClosedIn r contentJobId (refusesRevision row = true) s →
      ClosedIn r contentJobId False s := by
    rintro s ⟨⟨one, hone, h⟩, ⟨other, hother, h'⟩⟩
    exact ⟨⟨one, hone, h.notApproved, h.notPending, h.job, h.unpublished, False.elim⟩,
      ⟨other, hother, h'.notApproved, h'.notPending, h'.job, h'.unpublished, False.elim⟩⟩
  have hpre := at_state (hforget w hw)
  have hjob : row.contentJobId = contentJobId := by
    obtain ⟨⟨row', hrow', h⟩, -⟩ := hw
    obtain rfl : row = row' := mem_unique hrow hrow'
    exact h.job
  -- an intent that does not open the request, as it stands before the message
  have hintent : ∀ {id : ℕ} {intent : String} {feedback : Option String},
      (id = r → ¬ Reopens row intent feedback) →
      Keeps (ClosedIn r contentJobId (refusesRevision row = true))
        (applyIntent p now id intent feedback) := by
    intro id intent feedback hnot
    by_cases hid : id = r
    · subst hid
      refine keeps_applyIntent_closed (fun h ↦ hnot rfl (.inl h)) fun hrevise hfeedback ↦ ?_
      by_contra hneither
      rw [not_or] at hneither
      refine hnot rfl (.inr ⟨hrevise, hfeedback, Bool.eq_false_iff.mpr hneither.1, ?_⟩)
      rw [hjob]
      exact isSome_iff_ne_none.mpr hneither.2
    · exact keeps_applyIntent_of_ne (watch_closed hfresh) hid
  have hmono : ∀ {handler : Approval σ Unit},
      Triple (fun s ↦ s = w) handler (fun _ ↦ ClosedIn r contentJobId (refusesRevision row = true))
        (ClosedIn r contentJobId (refusesRevision row = true)) →
      Triple (fun s ↦ s = w) handler (fun _ ↦ ClosedIn r contentJobId False)
        (ClosedIn r contentJobId False) := fun h ↦
    h.mono (fun _ hs ↦ hs) (fun _ s hs ↦ hforget s hs) fun s hs ↦ hforget s hs
  cases message with
  | telegramCallback data cbChatId =>
    refine triple_handleTelegramCallback hpre (fun _ hs ↦ hs)
      fun s intent identifier id request chatId handler hverify hparse hs hrequest hhandler ↦ ?_
    subst hs
    obtain ⟨hbutton, hgate⟩ := hkeeps intent identifier id request hverify hparse hrequest
    by_cases hid : id = r
    · subst hid
      refine triple_dispatchIntent_closed hhandler hpre (hbutton rfl) fun h job hjob s' hs' ↦ ?_
      rw [hs']
      exact hgate h job hjob
    · refine triple_dispatchIntent_of_ne hhandler (watch_closed hfresh) hid hpre fun h job hjob s' hs' ↦ ?_
      rw [hs']
      exact hgate h job hjob
  | telegramMessage chatId text =>
    exact triple_of_keeps hpre (keeps_bind (keeps_handleTelegramMessage chatId text) fun _ ↦ keeps_pure _)
  | whatsappWebhook raw => exact triple_of_keeps hpre (keeps_handleWebhook raw)
  | whatsappInbox inboxId =>
    refine hmono (triple_processWebhookInbox hw fun message w₁ hturn ↦
      keeps_applyMessage_of (fun id hid ↦ hintent ?_) w₁)
    rintro rfl
    exact hkeeps message hturn.mem hid row hrow

/-! ### Runs -/

def InboundMessage.apply (p : Platform σ) (w : World σ) (message : Time × InboundMessage) : World σ :=
  ApprovalOp.apply p w (message.1, .inbound message.2)

/-- The request is neither approved nor pending, and the last message has published nothing for it. -/
def ClosedAfter (r : ℕ) (w : World σ) : Prop :=
  (∃ row, w.stored.requests.find r = some row ∧ row.status ≠ .approved ∧ row.status ≠ .pending) ∧
    .publishNow r ∉ w.calls

/-- The row of the request is neither approved nor pending. -/
def StoredClosed (r : ℕ) (contentJobId : Option ℕ) (w : World σ) : Prop :=
  ∃ row, w.stored.requests.find r = some row ∧ row.status ≠ .approved ∧ row.status ≠ .pending ∧
    row.contentJobId = contentJobId

/-- One message. -/
theorem StoredClosed.apply (hfresh : FreshJobs p contentJobId) (hw : StoredClosed r contentJobId w)
    {message : Time × InboundMessage} (hkeeps : KeepsClosed p r w.opened message.2) :
    StoredClosed r contentJobId (InboundMessage.apply p w message) ∧
      ClosedAfter r (InboundMessage.apply p w message) := by
  obtain ⟨row, hrow, happroved, hpending, hjob⟩ := hw
  have hclosed : Closed r contentJobId (refusesRevision row = true) [] row :=
    ⟨happroved, hpending, hjob, not_mem_nil, fun h ↦ h⟩
  have hopened : ClosedIn r contentJobId (refusesRevision row = true) w.opened :=
    ⟨⟨row, hrow, hclosed⟩, ⟨row, hrow, hclosed⟩⟩
  have hrequest : w.opened.request r = some row := hrow
  have hafter : ClosedIn r contentJobId False (InboundMessage.apply p w message) :=
    Tracked.transaction ((triple_message hfresh hrequest hopened hkeeps).state rfl)
  obtain ⟨-, row', hrow', h⟩ := hafter
  exact ⟨⟨row', hrow', h.notApproved, h.notPending, h.job⟩,
    ⟨row', hrow', h.notApproved, h.notPending⟩, h.unpublished⟩

/-- A rejected or expired request stays closed through every run of messages that do not open it, and
nothing is published on its behalf. -/
theorem closed_stays_closed (p : Platform σ) (r : ℕ) (w : World σ) (row : ApprovalRequest)
    (messages : List (Time × InboundMessage)) (hrow : w.stored.requests.find r = some row)
    (hclosed : row.status = .rejected ∨ row.status = .expired) (hfresh : FreshJobs p row.contentJobId)
    (hmessages : Along (InboundMessage.apply p) (fun w message ↦
      KeepsClosed p r w.opened message.2) messages w) :
    Along (InboundMessage.apply p) (fun w message ↦ ClosedAfter r (InboundMessage.apply p w message))
      messages w := by
  have hstep : ∀ (s : World σ) (message : Time × InboundMessage), StoredClosed r row.contentJobId s →
      KeepsClosed p r s.opened message.2 →
      StoredClosed r row.contentJobId (InboundMessage.apply p s message) := fun s message hs hkeeps ↦
    (hs.apply hfresh hkeeps).1
  refine hmessages.mono_invariant hstep (fun s message hs hkeeps ↦ (hs.apply hfresh hkeeps).2) ⟨row, hrow, ?_⟩
  rcases hclosed with h | h
  · rw [h]
    exact ⟨nofun, nofun, rfl⟩
  · rw [h]
    exact ⟨nofun, nofun, rfl⟩

/-! ### An old card -/

def rejectedRequest : ApprovalRequest :=
  { tenantId := "tenant", contentJobId := some 10, status := .rejected, recipient := "recipient" }

/-- The approve button on the card of a rejected request approves it and publishes its content. -/
theorem rejected_is_approved :
    rejectedRequest.status = .rejected ∧ FreshJobs (mockPlatform [] : Platform Unit) rejectedRequest.contentJobId ∧
    ¬ ClosedAfter 1 (InboundMessage.apply (mockPlatform []) (oneRequest rejectedRequest)
      (0, .telegramCallback "approve:1" "chat")) ∧
    ((InboundMessage.apply (mockPlatform []) (oneRequest rejectedRequest)
      (0, .telegramCallback "approve:1" "chat")).stored.requests.find 1).map ApprovalRequest.status =
        some .approved ∧
    (InboundMessage.apply (mockPlatform []) (oneRequest rejectedRequest)
      (0, .telegramCallback "approve:1" "chat")).calls = [.publishNow 1, .published 1] := by
  have hcalls : (InboundMessage.apply (mockPlatform []) (oneRequest rejectedRequest)
      (0, .telegramCallback "approve:1" "chat")).calls = [.publishNow 1, .published 1] := by decide +kernel
  refine ⟨rfl, ?_, ?_, by decide +kernel, hcalls⟩
  · intro tenantId job feedback channel rest revised hrevised
    obtain rfl : 20 = revised := Except.ok.inj hrevised
    decide
  · rintro ⟨-, hunpublished⟩
    rw [hcalls] at hunpublished
    exact hunpublished mem_cons_self

/-- A rejected request on whose card the reject button is pressed again. -/
theorem rejected_again :
    Along (InboundMessage.apply (mockPlatform []))
      (fun w message ↦ ClosedAfter 1 (InboundMessage.apply (mockPlatform []) w message))
      [(0, .telegramCallback "reject:1" "chat")] (oneRequest rejectedRequest) := by
  refine closed_stays_closed (mockPlatform []) 1 (oneRequest rejectedRequest) rejectedRequest _ rfl (.inl rfl)
    ?_ ⟨?_, trivial⟩
  · intro tenantId job feedback channel rest revised hrevised
    obtain rfl : 20 = revised := Except.ok.inj hrevised
    decide
  · intro intent identifier id request hverify hparse hrequest
    have hdata : verifySignedCallbackData (mockPlatform [] : Platform Unit) "reject:1" = (true, "reject", "1") := by
      decide +kernel
    obtain ⟨-, rfl, rfl⟩ : True ∧ "reject" = intent ∧ "1" = identifier := by
      simpa [hdata] using hverify
    refine ⟨fun _ ↦ ?_, fun h ↦ absurd h (by decide)⟩
    rintro (h | ⟨h, -⟩)
    · exact absurd h (by decide)
    · exact absurd h (by decide)

end ContentGenerator.Approvals
