import ContentGenerator.Approvals.Tracking
import ContentGenerator.Lib.JsonDict
import ContentGenerator.Lib.Play

/-!
# The binding of a request to its workflow node

A request that an approval node has created carries the binding of the node in its payload. Merging keeps it,
replacing drops it: `KeepsPayload` is the condition that an operation does not replace the payload of the
request. The engine may refuse to resume a node that is not waiting; `FindsWaiting` is the condition on the
handlers that keep their decision all the same. Under both `binding_survives` says that the binding is read
back unchanged and that the first decision resumes exactly the node.

`Sound` is the invariant of the row inside an operation; between the assignment of a decision and the return of
the engine it is weakened to `Deciding`. A handler that raises may leave only what is committed `Sound`.
-/

namespace ContentGenerator.Approvals

open Lib Lib.Action Workflows List Option JsonObject Triple

variable {σ : Type}

/-! ### The invariant of the row -/

def Carries (binding payload : JsonObject) : Prop := JsonObject.Holds payload "workflow" (.obj binding)

/-- The row is one of the tenant of the node and carries its binding. -/
def BoundRow (args : ApprovalNodeCall) (row : ApprovalRequest) : Prop :=
  row.tenantId = args.tenantId ∧ Carries args.binding row.responsePayloadJson

/-- The node a call resumes: its tenant and its token. -/
def ServiceCall.node : ServiceCall → Option (String × String)
  | .resume _ tenantId resumeToken _ | .resumed _ tenantId resumeToken _
  | .resumeSent _ tenantId resumeToken _ => some (tenantId, resumeToken)
  | .publishNow _ | .published _ => none

/-- Whatever is called on behalf of the request resumes the node. -/
def OnlyResumes (args : ApprovalNodeCall) (r : ℕ) (calls : List ServiceCall) : Prop :=
  ∀ call ∈ calls, call.requestId = r → call.node = some (args.tenantId, args.resumeToken)

/-- A bound row whose status may just have been assigned. -/
def Deciding (args : ApprovalNodeCall) (r : ℕ) (calls : List ServiceCall) (row : ApprovalRequest) : Prop :=
  BoundRow args row ∧ OnlyResumes args r calls

/-- A bound row: when it is decided, it has been before or the node has been resumed. -/
def Sound (args : ApprovalNodeCall) (r : ℕ) (decided : Prop) (calls : List ServiceCall)
    (row : ApprovalRequest) : Prop :=
  Deciding args r calls row ∧ (row.status.outcome ≠ none → decided ∨ FollowedUp r calls)

/-- The row of the request is sound in the session and where it is committed. -/
abbrev SoundIn (args : ApprovalNodeCall) (r : ℕ) (decided : Prop) : World σ → Prop :=
  Tracked r (Sound args r decided) (Sound args r decided)

variable {p : Platform σ} {args : ApprovalNodeCall} {r id : ℕ} {decided : Prop} {w : World σ}
  {row : ApprovalRequest} {calls : List ServiceCall} {now : Time} {intent tenantId : String}
  {feedback : Option String}

theorem getWorkflowBinding_eq (htoken : args.resumeToken ≠ "")
    (h : BoundRow args row) : getWorkflowBinding row = some args.binding := by
  have htruthy : (getTruthy args.binding "resume_token").isSome := by
    simp [getTruthy, JsonObject.get, ApprovalNodeCall.binding, buildWorkflowBinding,
      Json.truthy, htoken]
  unfold getWorkflowBinding
  rw [h.2.get]
  exact if_pos htruthy

theorem Carries.mergedPayload {binding current risk : JsonObject} (h : Carries binding current)
    (prior : JsonObject) (hrisk : risk.get "workflow" = none) :
    Carries binding (mergedPayload prior current risk) := by
  have hmerged : Carries binding (update (update prior current) risk) :=
    (JsonObject.Holds.update_patch h prior).update hrisk
  unfold Approvals.mergedPayload
  cases prior.get "workflow" with
  | none => exact hmerged
  | some other => exact JsonObject.Holds.setDefault hmerged other

/-! ### Sending and other requests -/

theorem BoundRow.payload (h : BoundRow args row) {payload : JsonObject} (hpayload : Carries args.binding payload) :
    BoundRow args { row with responsePayloadJson := payload } := ⟨h.1, hpayload⟩

theorem OnlyResumes.append (h : OnlyResumes args r calls) {call : ServiceCall}
    (hcall : call.requestId = r → call.node = some (args.tenantId, args.resumeToken)) :
    OnlyResumes args r (calls ++ [call]) := by
  intro other hother
  rcases mem_append.mp hother with hold | hnew
  · exact h other hold
  · rw [mem_singleton.mp hnew]
    exact hcall

theorem FollowedUp.append (h : FollowedUp r calls) (call : ServiceCall) : FollowedUp r (calls ++ [call]) := by
  obtain ⟨other, hother, hrequest⟩ := h
  exact ⟨other, mem_append_left _ hother, hrequest⟩

theorem Sound.note (h : Sound args r decided calls row)
    {call : ServiceCall} (hcall : call.requestId = r → call.node = some (args.tenantId, args.resumeToken)) :
    Sound args r decided (calls ++ [call]) row :=
  ⟨⟨h.1.1, h.1.2.append hcall⟩, fun hdecided ↦ (h.2 hdecided).imp_right fun hfollowed ↦ hfollowed.append call⟩

/-- A change of a row that keeps the binding and does not decide it. -/
theorem Sound.change {row' : ApprovalRequest} (h : Sound args r decided calls row) (hbound : BoundRow args row')
    (hstatus : row'.status.outcome = none ∨ row'.status = row.status) : Sound args r decided calls row' := by
  refine ⟨⟨hbound, h.1.2⟩, fun hdecided ↦ ?_⟩
  rcases hstatus with hnone | hsame
  · exact absurd hnone hdecided
  · rw [hsame] at hdecided
    exact h.2 hdecided

theorem sendable_sound : Sendable (Sound args r decided) where
  refresh _ _ _ _ _ _ _ h := h.change h.1.1 (.inl rfl)
  channel _ _ _ h := h.change h.1.1 (.inr rfl)
  merge _ _ prior _ h hrisk := h.change (h.1.1.payload (h.1.1.2.mergedPayload prior hrisk)) (.inr rfl)
  topic _ _ _ h hpatch := h.change (h.1.1.payload (JsonObject.Holds.update h.1.1.2 hpatch)) (.inr rfl)

theorem watch_sound : Watch p r (Sound args r decided) where
  note _ _ _ hcall h := h.note fun heq ↦ absurd heq hcall
  revised _ _ _ _ _ _ _ _ _ _ _ := sendable_sound

/-! ### Decisions on the request -/

theorem bindingChannels_binding : bindingChannels args.binding = some (args.channels.map .str) := by
  have hget : args.binding.get "channels" = some (.arr (args.channels.map .str)) := rfl
  unfold bindingChannels getTruthy
  rw [hget]
  cases args.channels with
  | nil => rfl
  | cons channel rest => rfl

/-- How the engine takes a decision: `waiting` says of the rest of the database that the node is waiting under
its token. -/
structure EngineOf (p : Platform σ) (args : ApprovalNodeCall) (waiting : σ → Prop) : Prop where
  accepts : ∀ outcome decision rest, outcome ∈ ["approved", "rejected", "expired"] → waiting rest →
    (p.resumeWaitingNode args.tenantId args.resumeToken outcome decision rest).result = .ok ()
  uncommitted : ∀ outcome decision rest,
    (p.resumeWaitingNode args.tenantId args.resumeToken outcome decision rest).committed = none
  preference : ∀ tenantId job verdict rest, waiting rest → waiting (p.recordPreference tenantId job verdict rest)

variable {waiting : σ → Prop} {accepted : Prop}

/-- The row is sound where it is committed, and in the session too if `accepted`. -/
def Refused (args : ApprovalNodeCall) (r : ℕ) (decided accepted : Prop) (w : World σ) : Prop :=
  (∃ row, w.stored.requests.find r = some row ∧ Sound args r decided w.calls row) ∧
    (accepted → SoundIn args r decided w)

theorem refused_of_sound (h : SoundIn args r decided w) : Refused args r decided accepted w := ⟨h.2, fun _ ↦ h⟩

/-- The handler keeps the row sound. When it raises, the row that is committed is. -/
abbrev Handles (args : ApprovalNodeCall) (r : ℕ) (decided accepted : Prop) (pre : World σ → Prop) {α : Type}
    (handler : Approval σ α) : Prop :=
  Triple pre handler (fun _ ↦ SoundIn args r decided) (Refused args r decided accepted)

/-- A handler that keeps the row sound. -/
theorem triple_refused {α : Type} {pre : World σ → Prop} {handler : Approval σ α}
    (h : Triple pre handler (fun _ ↦ SoundIn args r decided) (SoundIn args r decided)) :
    Handles args r decided accepted pre handler :=
  h.mono (fun _ hs ↦ hs) (fun _ _ hs ↦ hs) fun _ ↦ refused_of_sound

/-- A status may have been assigned. If `accepted`, the row is sound or the node is waiting for the decision. -/
def AtResume (args : ApprovalNodeCall) (r : ℕ) (decided accepted : Prop) (waiting : σ → Prop) (w : World σ) :
    Prop :=
  Tracked r (Deciding args r) (Sound args r decided) w ∧
    (accepted → SoundIn args r decided w ∨ waiting w.db.rest)

theorem deciding_of_sound (h : SoundIn args r decided w) :
    Tracked r (Deciding args r) (Sound args r decided) w := by
  obtain ⟨⟨row, hrow, hsound⟩, hstored⟩ := h
  exact ⟨⟨row, hrow, hsound.1⟩, hstored⟩

theorem atResume_of_sound (h : SoundIn args r decided w) : AtResume args r decided accepted waiting w :=
  ⟨deciding_of_sound h, fun _ ↦ .inl h⟩

/-- The engine is asked to resume the node of a request whose status has been assigned. -/
theorem triple_callFor (hengine : EngineOf p args waiting) {outcome : String} {decision : JsonObject}
    (houtcome : outcome ∈ ["approved", "rejected", "expired"]) (hw : AtResume args r decided accepted waiting w) :
    Handles args r decided accepted (fun s ↦ s = w) (callFor (.resume r args.tenantId args.resumeToken outcome)
        (.resumed r args.tenantId args.resumeToken outcome)
        (p.resumeWaitingNode args.tenantId args.resumeToken outcome decision)) := by
  obtain ⟨⟨⟨row, hrow, hbound, hcalls⟩, stored, hstored, hsound⟩, hready⟩ := hw
  have hmade : OnlyResumes args r (w.calls ++ [.resume r args.tenantId args.resumeToken outcome]) :=
    hcalls.append fun _ ↦ rfl
  have hstoredMade : Sound args r decided (w.calls ++ [.resume r args.tenantId args.resumeToken outcome]) stored :=
    hsound.note fun _ ↦ rfl
  refine triple_bind (m := fun _ s ↦ s = { w with
    calls := w.calls ++ [.resume r args.tenantId args.resumeToken outcome] })
    (triple_modify (by rintro _ rfl; rfl)) fun _ ↦ triple_call_bind (fun _ hok ↦ ?_) fun exc herror ↦ ?_
  · rw [after_of_uncommitted (hengine.uncommitted _ _ _)]
    refine triple_modify ?_
    rintro _ rfl
    refine ⟨⟨row, hrow, ⟨hbound, hmade.append fun _ ↦ rfl⟩, fun _ ↦ .inr ?_⟩, stored, hstored,
      hstoredMade.note fun _ ↦ rfl⟩
    exact ⟨_, mem_append_right _ (mem_singleton_self _), rfl, rfl⟩
  · rw [after_of_uncommitted (hengine.uncommitted _ _ _)]
    refine ⟨⟨stored, hstored, hstoredMade⟩, fun haccepted ↦ ?_⟩
    rcases hready haccepted with ⟨⟨row', hrow', hsound'⟩, -⟩ | hwaiting
    · exact ⟨⟨row', hrow', hsound'.note fun _ ↦ rfl⟩, stored, hstored, hstoredMade⟩
    · exact absurd (herror.symm.trans (hengine.accepts outcome decision _ houtcome hwaiting)) nofun

/-- What the next decision needs from the state: if `accepted`, an undecided row finds its node waiting. -/
def FindsNode (r : ℕ) (decided accepted : Prop) (waiting : σ → Prop) (w : World σ) : Prop :=
  accepted → decided ∨ FollowedUp r w.calls ∨
    (∀ row, w.request r = some row → row.status.outcome ≠ none) ∨ waiting w.db.rest

theorem findsNode_of_false : FindsNode r decided False waiting w := False.elim

/-- A decision is assigned. -/
theorem triple_setStatus (status : ApprovalStatus) :
    Triple (fun s ↦ SoundIn (σ := σ) args r decided s ∧ FindsNode r decided accepted waiting s)
      (setStatus r status) (fun _ ↦ AtResume args r decided accepted waiting)
      (Refused args r decided accepted) := by
  refine triple_modify ?_
  rintro w ⟨hw, hready⟩
  refine ⟨hw.step fun _ _ h ↦ ⟨h.1.1, h.1.2⟩, fun haccepted ↦ ?_⟩
  obtain ⟨⟨row, hrow, hsound⟩, hstored⟩ := hw
  have hsettled : decided ∨ FollowedUp r w.calls →
      SoundIn args r decided (w.update r fun row ↦ { row with status := status }) := fun hsettled ↦
    ⟨⟨_, request_update_of hrow, ⟨hsound.1.1, hsound.1.2⟩, fun _ ↦ hsettled⟩, hstored⟩
  rcases hready haccepted with hdecided | hfollowed | hrowDecided | hwaiting
  · exact .inl (hsettled (.inl hdecided))
  · exact .inl (hsettled (.inr hfollowed))
  · exact .inl (hsettled (hsound.2 (hrowDecided row hrow)))
  · exact .inr hwaiting

theorem triple_applyReject (hengine : EngineOf p args waiting) :
    Triple (fun s ↦ SoundIn args r decided s ∧ FindsNode r decided accepted waiting s) (applyReject p r)
      (fun _ ↦ AtResume args r decided accepted waiting) (Refused args r decided accepted) := by
  refine triple_bind (triple_setStatus _) fun _ ↦ triple_read_bind fun w _ ↦ ?_
  cases w.request r with
  | none => exact triple_pure fun _ hw ↦ hw
  | some request =>
    dsimp only
    cases request.contentJobId with
    | none => exact triple_pure fun _ hw ↦ hw
    | some job =>
      exact triple_modify fun s hs ↦
        ⟨hs.1, fun haccepted ↦ (hs.2 haccepted).imp id (hengine.preference _ _ _ _)⟩

theorem stampWorkflowBinding_eq (row : ApprovalRequest) :
    stampWorkflowBinding (some args.binding) row =
      { row with
        responsePayloadJson := row.responsePayloadJson.set "workflow" (.obj args.binding) } := rfl

theorem triple_applyRevise {feedback : String} (htoken : args.resumeToken ≠ "") (hw : SoundIn args r decided w)
    (hfinds : ∀ row, w.request r = some row → refusesRevision row = true →
      FindsNode r decided accepted waiting w) :
    Triple (fun s ↦ s = w) (applyRevise p now r feedback)
      (fun _ ↦ AtResume args r decided accepted waiting) (Refused args r decided accepted) := by
  refine triple_read_bind fun s hs ↦ ?_
  subst hs
  obtain ⟨row, hrow, hsound⟩ := hw.1
  rw [hrow]
  dsimp only
  have hset : ∀ other : ApprovalRequest, Carries args.binding
      (other.responsePayloadJson.set "workflow" (.obj args.binding)) := fun other ↦
    holds_set_self _ _ _
  refine triple_ite (fun hrefuses ↦ (triple_setStatus _).mono ?_ (fun _ _ hs ↦ hs) fun _ hs ↦ hs) fun _ ↦
    mono (Keeps.triple ?_) (at_state hw) (fun _ _ ↦ atResume_of_sound) fun _ ↦ refused_of_sound
  · rintro _ rfl
    exact ⟨hw, hfinds row hrow hrefuses⟩
  · refine keeps_bind (keeps_updateRequest fun _ _ _ h ↦ h.change h.1.1 (.inl rfl)) fun _ ↦ ?_
    cases row.contentJobId with
    | none => exact keeps_pure ()
    | some job =>
      refine keeps_reviseContent watch_sound fun _ calls other revised h ↦ ?_
      rw [getWorkflowBinding_eq htoken hsound.1.1, stampWorkflowBinding_eq, stampWorkflowBinding_eq]
      exact ⟨h.change ⟨h.1.1.1, hset other⟩ (.inl rfl), h.change ⟨h.1.1.1, hset other⟩ (.inr rfl)⟩

/-- An intent that decides the request. -/
def Decides (request : ApprovalRequest) (intent : String) : Prop :=
  intent = "approve" ∨ intent = "reject" ∨ (intent = "revise" ∧ refusesRevision request = true)

/-! ### Which operations keep the payload -/

def ReplacesPayload (p : Platform σ) (request : ApprovalRequest) (intent : String) : Prop :=
  intent ∈ ["hold_topic", "hold_publish", "cancel_publish", "safer_topic", "regen_topic"] ∨
    (intent ∈ ["approve", "approve_topic", "approve_publish", "reject", "reject_topic"] ∧
      ∃ entityId, request.topicEntity = some entityId ∧ p.parseUuid entityId ≠ none)

/-- The button does not replace the payload of `r`: neither its own handler, nor the publish step of a
content job whose latest request is `r`. -/
def KeepsPayloadButton (p : Platform σ) (r : ℕ) (w : World σ) (id : ℕ) (request : ApprovalRequest)
    (intent : String) : Prop :=
  (id = r → ¬ ReplacesPayload p request intent) ∧
    (intent = "publish_gate" → ∀ job, request.contentJobId = some job → w.requestForContentJob job ≠ some r)

/-- The operation does not replace the payload of `r`. -/
def KeepsPayload (p : Platform σ) (args : ApprovalNodeCall) (r : ℕ) (w : World σ) : ApprovalOp → Prop
  | .inbound (.telegramCallback data _) => ∀ intent identifier id request,
    verifySignedCallbackData p data = (true, intent, identifier) → p.parseUuid identifier = some id →
      w.request id = some request → KeepsPayloadButton p r w id request intent
  | .send _ payload => payload.approvalType = "publish" → ∀ job, payload.contentJobId = some job →
    w.requestForContentJob job ≠ some r
  | .resend _ id => ∀ request, w.request id = some request → request.approvalType = "publish" →
    ∀ job, request.contentJobId = some job → w.requestForContentJob job ≠ some r
  | .node other => other.resumeToken ≠ "" → w.requestForContentJob other.contentJobId ≠ some r
  | .expiredWait tenantId resumeToken payload => boundRequest p payload = some r →
    tenantId = args.tenantId ∧ resumeToken = args.resumeToken
  | _ => True

/-! ### Which decisions find their node waiting -/

/-- A handler that keeps its decision when the engine refuses it finds the node waiting for the first decision:
the button that approves, and a message of a delivery when it has its turn. -/
def FindsWaiting (p : Platform σ) (waiting : σ → Prop) (r : ℕ) (now : Time) (w : World σ) : ApprovalOp → Prop
  | .inbound (.telegramCallback data _) => ∀ intent identifier row,
    verifySignedCallbackData p data = (true, intent, identifier) → p.parseUuid identifier = some r →
      intent ∈ ["approve", "approve_topic", "approve_publish"] → w.request r = some row →
        row.status.outcome = none → waiting w.db.rest
  | .inbound (.whatsappInbox inboxId) => ∀ message w₁ row, HasTurn p now inboxId w message w₁ →
    messageRequest p message = some r → w₁.request r = some row → Decides row message.intent →
      row.status.outcome = none → ¬ FollowedUp r w₁.calls → waiting w₁.db.rest
  | _ => True

theorem findsNode_of_waiting (h : ¬ decided → ∀ row, w.request r = some row → row.status.outcome = none →
    ¬ FollowedUp r w.calls → waiting w.db.rest) : FindsNode r decided accepted waiting w := by
  intro _
  by_cases hdecided : decided
  · exact .inl hdecided
  by_cases hfollowed : FollowedUp r w.calls
  · exact .inr (.inl hfollowed)
  by_cases hrow : ∀ row, w.request r = some row → row.status.outcome ≠ none
  · exact .inr (.inr (.inl hrow))
  push Not at hrow
  obtain ⟨row, hrow, hundecided⟩ := hrow
  exact .inr (.inr (.inr (h hdecided row hrow hundecided hfollowed)))

/-! ### Handlers that decide nothing -/

theorem keeps_setStatus {status : ApprovalStatus} (h : status.outcome = none) (id : ℕ) :
    Keeps (SoundIn (σ := σ) args r decided) (setStatus id status) :=
  keeps_updateRequest fun _ _ _ hsound ↦ hsound.change hsound.1.1 (.inl h)

theorem keeps_setPayload {payload : JsonObject} (h : Carries args.binding payload) (id : ℕ) :
    Keeps (SoundIn (σ := σ) args r decided) (setPayload id payload) :=
  keeps_updateRequest fun _ _ _ hsound ↦ hsound.change (hsound.1.1.payload h) (.inr rfl)

theorem triple_sendApproval {payload : SendApprovalRequest} (hw : SoundIn args r decided w)
    (hkeeps : KeepsPayload p args r w (.send tenantId payload)) :
    Triple (fun s ↦ s = w) (sendApproval p now tenantId payload)
      (fun _ ↦ SoundIn args r decided) (SoundIn args r decided) := by
  have hpre := at_state hw
  unfold sendApproval
  refine triple_ite (fun _ ↦ ?_) fun _ ↦ triple_ite (fun htype ↦ ?_) fun _ ↦ ?_
  · cases payload.relatedEntityId.filter (· ≠ "") with
    | none => exact triple_raise hpre
    | some entityId =>
      refine triple_bind (triple_readOr hpre) fun candidate ↦ triple_bind ?_ fun _ ↦ triple_pure fun _ hs ↦ hs
      exact triple_of_keeps hpre (keeps_sendTopicForApproval sendable_sound)
  · cases hjob : payload.contentJobId with
    | none => exact triple_raise hpre
    | some job =>
      refine triple_bind (triple_sendPublishForApproval hpre ?_) fun _ ↦ triple_pure fun _ hs ↦ hs
      rintro s rfl
      exact hkeeps htype job hjob
  · cases payload.contentJobId with
    | none => exact triple_raise hpre
    | some job =>
      exact triple_bind (triple_sendForApproval (H := fun _ ↦ True) hpre (fun _ _ _ _ ↦ trivial)
        (fun _ _ ↦ trivial) fun _ _ _ ↦ sendable_sound) fun _ ↦ triple_pure fun _ hs ↦ hs.1

theorem triple_resendRequest (hw : SoundIn args r decided w)
    (hkeeps : KeepsPayload p args r w (.resend tenantId id)) :
    Triple (fun s ↦ s = w) (resendRequest p now tenantId id)
      (fun _ ↦ SoundIn args r decided) (SoundIn args r decided) := by
  have hpre := at_state hw
  refine triple_read_bind fun s hs ↦ ?_
  subst hs
  cases hrequest : (s.request id).filter fun request ↦ request.tenantId = tenantId with
  | none => exact triple_raise hpre
  | some request =>
    have hfind := (filter_eq_some_iff.mp hrequest).1
    refine triple_ite (fun _ ↦ ?_) fun _ ↦ triple_ite (fun htype ↦ ?_) fun _ ↦ ?_
    · cases request.contentJobId with
      | none => exact triple_raise hpre
      | some job =>
        exact triple_bind (triple_sendForApproval (H := fun _ ↦ True) hpre (fun _ _ _ _ ↦ trivial)
          (fun _ _ ↦ trivial) fun _ _ _ ↦ sendable_sound) fun _ ↦ triple_pure fun _ hs ↦ hs.1
    · cases hjob : request.contentJobId with
      | none => exact triple_raise hpre
      | some job =>
        refine triple_bind (triple_readOr hpre) fun platforms ↦ triple_bind (triple_readOr hpre) fun at_ ↦ ?_
        refine triple_bind (triple_sendPublishForApproval hpre ?_) fun _ ↦ triple_pure fun _ hs ↦ hs
        rintro _ rfl
        exact hkeeps request hfind htype job hjob
    · cases request.topicEntity with
      | none => exact triple_raise hpre
      | some entityId =>
        refine triple_bind (triple_readOr hpre) fun candidate ↦ triple_bind ?_ fun _ ↦ triple_pure fun _ hs ↦ hs
        exact triple_of_keeps hpre (keeps_sendTopicForApproval sendable_sound)

theorem triple_requestNodeApproval {other : ApprovalNodeCall} (hw : SoundIn args r decided w)
    (hkeeps : KeepsPayload p args r w (.node other)) :
    Triple (fun s ↦ s = w) (requestNodeApproval p now other)
      (fun _ ↦ SoundIn args r decided) (SoundIn args r decided) := by
  have hpre := at_state hw
  refine triple_bind (triple_sendForApproval (H := fun id ↦ other.resumeToken ≠ "" → id ≠ r) hpre ?_
    (fun _ hid _ ↦ hid) fun _ _ _ ↦ sendable_sound) fun id ↦ triple_of_pure fun hid ↦ Keeps.triple ?_
  · rintro s rfl id hfound hother rfl
    exact hkeeps hother hfound
  · refine keeps_bind (keeps_deliverAll (fun _ ↦ sendable_sound) _) fun _ ↦
      keeps_ite (fun _ ↦ keeps_pure _) fun hother ↦ ?_
    exact keeps_bind (keeps_updateRequest fun heq ↦ absurd heq (hid hother)) fun _ ↦ keeps_pure _

theorem triple_wakeExpiredWait {resumeToken : String} {payload : JsonObject} (hw : SoundIn args r decided w)
    (hkeeps : KeepsPayload p args r w (.expiredWait tenantId resumeToken payload)) :
    Triple (fun s ↦ s = w) (wakeExpiredWait p tenantId resumeToken payload)
      (fun _ ↦ SoundIn args r decided) (SoundIn args r decided) := by
  have hpre := at_state hw
  unfold wakeExpiredWait
  cases hbound : boundRequest p payload with
  | none => exact triple_pure hpre
  | some id =>
    by_cases hid : id = r
    · subst hid
      obtain ⟨rfl, rfl⟩ := hkeeps hbound
      refine triple_bind (m := fun _ s ↦ s.calls = w.calls ∧
        ∃ row, w.request id = some row ∧ s.request id = some
          (if row.status = .pending then { row with status := .expired } else row) ∧
          s.stored = w.stored) (triple_modify ?_) fun _ ↦ triple_modify ?_
      · rintro s rfl
        obtain ⟨⟨row, hrow, -⟩, -⟩ := hw
        refine ⟨rfl, row, hrow, ?_, rfl⟩
        rw [request_update_self, hrow]
        rfl
      · rintro s ⟨hcalls, row, hrow, hafter, hstored⟩
        obtain ⟨⟨row', hrow', hsound⟩, stored, hfind, hsound'⟩ := hw
        obtain rfl : row = row' := mem_unique hrow hrow'
        have hsent : FollowedUp id (s.calls ++ [.resumeSent id args.tenantId args.resumeToken "expired"]) :=
          ⟨_, mem_append_right _ (mem_singleton_self _), rfl, rfl⟩
        have hnote : OnlyResumes args id
            (s.calls ++ [.resumeSent id args.tenantId args.resumeToken "expired"]) := by
          rw [hcalls]
          exact hsound.1.2.append fun _ ↦ rfl
        refine ⟨⟨_, hafter, ⟨?_, hnote⟩, fun _ ↦ .inr hsent⟩, stored, ?_, ?_⟩
        · split_ifs
          · exact hsound.1.1
          · exact hsound.1.1
        · rw [← hfind, ← hstored]
        · dsimp only
          rw [hcalls]
          exact hsound'.note fun _ ↦ rfl
    · refine triple_bind (m := fun _ ↦ SoundIn args r decided)
        (triple_modify ?_) fun _ ↦ Keeps.triple (keeps_note ?_ ?_)
      · rintro s rfl
        exact hw.update fun heq ↦ absurd heq hid
      · exact fun _ _ h ↦ h.note fun heq ↦ absurd heq hid
      · exact fun _ _ h ↦ h.note fun heq ↦ absurd heq hid

/-! ### Handlers that decide -/

section Decisions

variable (htoken : args.resumeToken ≠ "") (hengine : EngineOf p args waiting)

include htoken hengine

/-- After a decision, the engine is asked to resume the node. -/
theorem triple_maybeResume :
    Handles args r decided accepted (AtResume args r decided accepted waiting)
      (maybeResumeWorkflowFromApproval p r) := by
  refine triple_read_bind_eq fun w hw ↦ ?_
  obtain ⟨row, hrow, hbound, hcalls⟩ := hw.1.1
  rw [hrow]
  dsimp only
  rw [getWorkflowBinding_eq htoken hbound]
  cases houtcome : row.status.outcome with
  | none =>
    refine triple_pure ?_
    rintro s rfl
    exact ⟨⟨row, hrow, ⟨hbound, hcalls⟩, fun hdecided ↦ absurd houtcome hdecided⟩, hw.1.2⟩
  | some outcome =>
    dsimp only
    rw [bindingChannels_binding, hbound.1]
    refine triple_callFor hengine ?_ hw
    revert houtcome
    cases row.status <;> rintro ⟨⟩ <;> decide

theorem triple_applyApprove :
    Triple (fun s ↦ SoundIn args r decided s ∧ FindsNode r decided accepted waiting s) (applyApprove p r)
      (fun _ ↦ AtResume args r decided accepted waiting) (Refused args r decided accepted) := by
  refine triple_bind (triple_setStatus _) fun _ ↦ triple_read_bind_eq fun w hw ↦ ?_
  have hpre := at_state hw
  obtain ⟨row, hrow, hbound, -⟩ := hw.1.1
  rw [hrow]
  dsimp only
  cases row.contentJobId with
  | none => exact triple_pure hpre
  | some job =>
    refine triple_bind (m := fun _ ↦ AtResume args r decided accepted waiting)
      (triple_modify fun s hs ↦ ?_) fun _ ↦ ?_
    · have hresume := hpre s hs
      exact ⟨hresume.1, fun haccepted ↦ (hresume.2 haccepted).imp id (hengine.preference _ _ _ _)⟩
    · rw [getWorkflowBinding_eq htoken hbound]
      exact triple_pure fun _ hw ↦ hw

/-- A decision on the request, on any channel. -/
theorem triple_applyIntent (hw : SoundIn args r decided w)
    (hfinds : ∀ row, w.request r = some row → Decides row intent → FindsNode r decided accepted waiting w) :
    Handles args r decided accepted (fun s ↦ s = w) (applyIntent p now r intent feedback) := by
  unfold applyIntent
  cases haction : intentAction p now r intent feedback with
  | none => exact triple_pure (at_state hw)
  | some action =>
    refine triple_bind (m := fun _ ↦ AtResume args r decided accepted waiting) ?_ fun _ ↦
      triple_maybeResume htoken hengine
    obtain ⟨row, hrow, -⟩ := hw.1
    have hpre : Decides row intent →
        ∀ s, s = w → SoundIn args r decided s ∧ FindsNode r decided accepted waiting s := by
      rintro hdecides _ rfl
      exact ⟨hw, hfinds row hrow hdecides⟩
    unfold intentAction at haction
    split_ifs at haction with happrove hrevise hreject
    · cases haction
      exact (triple_applyApprove htoken hengine).mono (hpre (.inl happrove)) (fun _ _ hs ↦ hs) fun _ hs ↦ hs
    · obtain ⟨text, -, rfl⟩ := map_eq_some_iff.mp haction
      exact triple_applyRevise htoken hw fun row hrow hrefuses ↦
        hfinds row hrow (.inr (.inr ⟨hrevise, hrefuses⟩))
    · cases haction
      exact (triple_applyReject hengine).mono (hpre (.inr (.inl hreject))) (fun _ _ hs ↦ hs) fun _ hs ↦ hs

/-- A decision by a handler that does not catch what the engine raises. -/
theorem triple_applyIntent_any :
    Handles args r decided False (SoundIn args r decided) (applyIntent p now id intent feedback) := by
  intro w hw
  by_cases hid : id = r
  · rw [hid]
    exact triple_applyIntent htoken hengine hw (fun _ _ _ ↦ findsNode_of_false) w rfl
  · exact triple_refused (keeps_applyIntent_of_ne watch_sound hid).triple w hw

/-- The handler of a button on the card of the request. -/
theorem triple_dispatchIntent {pre : World σ → Prop} {chatId cbChatId : String} {handler : Approval σ Unit}
    (hhandler : dispatchIntent p now r row intent chatId cbChatId = some handler) (hbound : BoundRow args row)
    (hpre : ∀ w, pre w → SoundIn args r decided w)
    (hkeeps : ∀ w, pre w → KeepsPayloadButton p r w r row intent)
    (hfinds : intent ∈ ["approve", "approve_topic", "approve_publish"] →
      ∀ w, pre w → FindsNode r decided True waiting w) (hsome : ∃ w, pre w) :
    Handles args r decided False pre handler := by
  have hkept : ∀ {handler : Approval σ Unit}, Keeps (SoundIn args r decided) handler →
      Handles args r decided False pre handler := fun h ↦
    triple_refused (triple_of_keeps hpre h)
  obtain ⟨w₀, hw₀⟩ := hsome
  have hnot := (hkeeps w₀ hw₀).1 rfl
  have hset : ∀ (key : String) (value : Json), "workflow" ≠ key →
      Carries args.binding (row.responsePayloadJson.set key value) := fun _ value hkey ↦
    JsonObject.Holds.set hbound.2 value hkey
  -- a topic request whose candidate can be read would have its payload replaced
  have htopic : ∀ {status : ApprovalStatus} {candidateStatus decision : String} {entityId : String},
      intent ∈ ["approve", "approve_topic", "approve_publish", "reject", "reject_topic"] →
      row.topicEntity = some entityId →
      Keeps (SoundIn args r decided)
        (decideTopic p r row entityId candidateStatus status decision) := by
    intro status candidateStatus decision entityId hintent hentity
    refine keeps_ite (fun _ ↦ keeps_raise _) fun hparse ↦ ?_
    exact absurd (.inr ⟨hintent, entityId, hentity, hparse⟩) hnot
  rcases dispatchIntent_cases hhandler with ⟨hintent, rfl⟩ | ⟨hintent, rfl⟩ | ⟨-, rfl⟩ | ⟨-, rfl⟩ |
    ⟨hintent, job, hjob, rfl⟩ | ⟨hintent, rfl⟩ | ⟨hintent, rfl⟩ | ⟨-, rfl⟩ | ⟨-, rfl⟩ | ⟨hintent, rfl⟩
  · unfold handleApprove
    cases hentity : row.topicEntity with
    | some entityId =>
      refine hkept (htopic ?_ hentity)
      simp only [mem_cons, not_mem_nil, or_false] at hintent ⊢
      tauto
    | none =>
      refine triple_tryCatch (m := SoundIn args r decided) (fun s hs ↦ ?_) fun _ ↦
        triple_refused (keeps_pure ()).triple
      have hdecision : Handles args r decided True (fun w ↦ w = s) (applyIntent p now r "approve" none) :=
        triple_applyIntent htoken hengine (hpre s hs) fun _ _ _ ↦ hfinds hintent s hs
      exact triple_bind (hdecision.mono (fun _ hs ↦ hs) (fun _ _ hs ↦ hs) fun _ hs ↦ hs.2 trivial) (fun _ ↦
        Keeps.triple (keeps_ite (fun _ ↦ keeps_markJobClusterState _ _) fun _ ↦ keeps_pure ())) s rfl
  · unfold handleReject
    cases hentity : row.topicEntity with
    | some entityId =>
      refine hkept (htopic ?_ hentity)
      simp only [mem_cons, not_mem_nil, or_false] at hintent ⊢
      tauto
    | none =>
      exact triple_bind ((triple_applyIntent_any htoken hengine).mono hpre (fun _ _ hs ↦ hs) fun _ hs ↦ hs)
        fun _ ↦ triple_refused (keeps_markJobClusterState _ _).triple
  · exact hkept (keeps_bind (keeps_setRevisionSession _ _ _) fun _ ↦
      keeps_bind (keeps_setStatus rfl _) fun _ ↦ keeps_markJobClusterState _ _)
  · exact hkept (keeps_bind (keeps_setRevisionSession _ _ _) fun _ ↦
      keeps_bind (keeps_setStatus rfl _) fun _ ↦ keeps_setPayload (hset _ _ (by decide)) _)
  · exact triple_refused (triple_handlePublishGate hpre fun w hw ↦ (hkeeps w hw).2 hintent job hjob)
  · refine absurd (.inl ?_) hnot
    simp only [mem_cons, not_mem_nil, or_false] at hintent ⊢
    tauto
  · refine absurd (.inl ?_) hnot
    rw [hintent]
    decide
  · exact hkept (keeps_bind (keeps_setStatus rfl _) fun _ ↦
      keeps_setPayload (hset _ _ (by decide)) _)
  · exact triple_bind (hkept (keeps_setPayload (hset _ _ (by decide)) _)) fun _ ↦
      triple_applyIntent_any htoken hengine
  · refine absurd (.inl ?_) hnot
    simp only [mem_cons, not_mem_nil, or_false] at hintent ⊢
    tauto

/-- A message that names the request, when it has its turn. -/
theorem sound_applyMessage {inboxId : ℕ} {message : ParsedWhatsAppMessage} {w₁ : World σ}
    (hw₁ : SoundIn args r decided w₁)
    (hfinds : ¬ decided → FindsWaiting p waiting r now w (.inbound (.whatsappInbox inboxId)))
    (hturn : HasTurn p now inboxId w message w₁) : SoundIn args r decided (applyMessage p now message w₁).2 := by
  by_cases hid : messageRequest p message = some r
  · obtain ⟨row, hrow, -⟩ := hw₁.1
    have hintent : Triple (fun s ↦ s = w₁) (applyIntent p now r message.intent message.feedback)
        (fun _ ↦ SoundIn args r decided) (SoundIn args r decided) :=
      (triple_applyIntent htoken hengine hw₁ fun row' hrow' hdecides ↦
        findsNode_of_waiting fun hundecided row'' hrow'' ↦
          hfinds hundecided message w₁ row'' hturn hid hrow'' (by
            obtain rfl : row' = row'' := mem_unique hrow' hrow''
            exact hdecides)).mono (fun _ hs ↦ hs) (fun _ _ hs ↦ hs) fun _ hs ↦ hs.2 trivial
    have happly : applyMessage p now message w₁ = applyIntent p now r message.intent message.feedback w₁ := by
      unfold applyMessage
      rw [hid]
      refine (bind_of_ok (show getRequestById r w₁ = (.ok (w₁.request r), w₁) from rfl)).trans ?_
      rw [hrow]
    rw [happly]
    exact hintent.state rfl
  · refine keeps_applyMessage_of (fun id hmessage ↦ keeps_applyIntent_of_ne watch_sound ?_) w₁ hw₁
    rintro rfl
    exact hid hmessage

theorem triple_inbound {message : InboundMessage} (hw : SoundIn args r decided w)
    (hkeeps : KeepsPayload p args r w (.inbound message))
    (hfinds : ¬ decided → FindsWaiting p waiting r now w (.inbound message)) :
    Handles args r decided False (fun s ↦ s = w) (message.handler p now) := by
  have hpre := at_state hw
  cases message with
  | telegramCallback data cbChatId =>
    refine triple_handleTelegramCallback hpre (fun _ ↦ refused_of_sound)
      fun s intent identifier id request chatId handler hverify hparse hs hrequest hhandler ↦ ?_
    subst hs
    have hbutton := hkeeps intent identifier id request hverify hparse hrequest
    by_cases hid : id = r
    · subst hid
      obtain ⟨⟨row, hrow, hsound⟩, -⟩ := hw
      obtain rfl : request = row := mem_unique hrequest hrow
      refine triple_dispatchIntent htoken hengine hhandler hsound.1.1 hpre ?_ ?_ ⟨s, rfl⟩
      · rintro _ rfl
        exact hbutton
      · rintro hintent _ rfl
        exact findsNode_of_waiting fun hundecided row hrow hstatus _ ↦
          hfinds hundecided intent identifier row hverify hparse hintent hrow hstatus
    · refine triple_refused (triple_dispatchIntent_of_ne hhandler watch_sound hid hpre ?_)
      rintro hintent job hjob _ rfl
      exact hbutton.2 hintent job hjob
  | telegramMessage chatId text =>
    exact triple_refused (triple_of_keeps hpre
      (keeps_bind (keeps_handleTelegramMessage chatId text) fun _ ↦ keeps_pure _))
  | whatsappWebhook raw =>
    exact triple_refused (triple_of_keeps hpre (keeps_handleWebhook raw))
  | whatsappInbox inboxId =>
    exact triple_refused (triple_processWebhookInbox hw fun message w₁ hturn hw₁ ↦
      sound_applyMessage htoken hengine hw₁ hfinds hturn)

theorem triple_operatorAction {action : String} :
    Handles args r decided False (SoundIn args r decided) (operatorAction p now tenantId id action feedback) := by
  refine triple_read_bind fun w _ ↦ ?_
  cases (w.request id).filter fun request ↦ request.tenantId = tenantId with
  | none => exact triple_raise fun _ ↦ refused_of_sound
  | some request =>
    refine triple_ite (fun _ ↦ ?_) fun _ ↦ triple_ite (fun _ ↦ triple_applyIntent_any htoken hengine) fun _ ↦
      triple_raise fun _ ↦ refused_of_sound
    refine triple_refused (Keeps.triple ?_)
    unfold regenerateRequest
    cases request.contentJobId with
    | none => exact keeps_raise _
    | some job =>
      refine keeps_bind (keeps_call _) fun revised ↦ keeps_updateRequest fun _ _ _ h ↦ ?_
      exact h.change h.1.1 (.inl rfl)

theorem triple_expireStaleApprovals :
    Handles args r decided False (SoundIn args r decided) (expireStaleApprovals p now) := by
  refine triple_read_bind fun w _ ↦ triple_forEach fun id ↦ ?_
  by_cases hid : id = r
  · rw [hid]
    exact triple_bind ((triple_setStatus _).mono
      (fun _ hs ↦ ⟨hs, findsNode_of_false⟩) (fun _ _ hs ↦ hs) fun _ hs ↦ hs)
      fun _ ↦ triple_maybeResume htoken hengine
  · exact triple_refused (keeps_bind (keeps_setStatus_of_ne hid _) fun _ ↦
      keeps_maybeResume_of_ne watch_sound hid).triple

theorem triple_operation {op : ApprovalOp} (hw : SoundIn args r decided w) (hkeeps : KeepsPayload p args r w op)
    (hfinds : ¬ decided → FindsWaiting p waiting r now w op) :
    Handles args r decided False (fun s ↦ s = w) (op.handler p now) := by
  have hpre := at_state hw
  cases op with
  | inbound message => exact triple_inbound htoken hengine hw hkeeps hfinds
  | send tenantId payload => exact triple_refused (triple_sendApproval hw hkeeps)
  | resend tenantId id => exact triple_refused (triple_resendRequest hw hkeeps)
  | operator tenantId id action feedback =>
    exact (triple_operatorAction htoken hengine).mono hpre (fun _ _ hs ↦ hs) fun _ hs ↦ hs
  | node other =>
    exact triple_refused
      (triple_bind (triple_requestNodeApproval hw hkeeps) fun _ ↦ triple_pure fun _ hs ↦ hs)
  | expireStale => exact (triple_expireStaleApprovals htoken hengine).mono hpre (fun _ _ hs ↦ hs) fun _ hs ↦ hs
  | expiredWait tenantId resumeToken payload => exact triple_refused (triple_wakeExpiredWait hw hkeeps)

end Decisions

/-! ### Runs -/

/-- The request as an approval node leaves it: pending, with the binding of the node. -/
structure CreatedFor (args : ApprovalNodeCall) (r : ℕ) (w : World σ) : Prop where
  token : args.resumeToken ≠ ""
  row : ∃ row, w.stored.requests.find r = some row ∧ row.status = .pending ∧ BoundRow args row

def BindingReadBack (args : ApprovalNodeCall) (r : ℕ) (w : World σ) : Prop :=
  ∃ row, w.stored.requests.find r = some row ∧ getWorkflowBinding row = some args.binding

def Undecided (r : ℕ) (w : World σ) : Prop :=
  ∀ row, w.stored.requests.find r = some row → row.status.outcome = none

/-- None of these operations decides the request. -/
def StillOpen (p : Platform σ) (r : ℕ) (ops : List (Time × ApprovalOp)) (w : World σ) : Prop :=
  ∀ before after, ops = before ++ after → Undecided r (play (ApprovalOp.apply p) before w)

def StoredBound (args : ApprovalNodeCall) (r : ℕ) (w : World σ) : Prop :=
  ∃ row, w.stored.requests.find r = some row ∧ BoundRow args row

/-- One operation: the row stays bound, and the first decision resumes the node. -/
theorem StoredBound.apply (htoken : args.resumeToken ≠ "") (hengine : EngineOf p args waiting)
    (hw : StoredBound args r w) {op : Time × ApprovalOp} (hkeeps : KeepsPayload p args r w.opened op.2)
    (hopen : ¬ decided → Undecided r w ∧ FindsWaiting p waiting r op.1 w.opened op.2) :
    StoredBound args r (ApprovalOp.apply p w op) ∧ OnlyResumes args r (ApprovalOp.apply p w op).calls ∧
      (¬ Undecided r (ApprovalOp.apply p w op) → decided ∨ FollowedUp r (ApprovalOp.apply p w op).calls) := by
  obtain ⟨row, hrow, hbound⟩ := hw
  have hopened : SoundIn args r decided w.opened := by
    have hsound : Sound args r decided [] row := by
      refine ⟨⟨hbound, fun call hcall ↦ absurd hcall not_mem_nil⟩, fun hdecided ↦ .inl ?_⟩
      by_contra hundecided
      exact hdecided ((hopen hundecided).1 row hrow)
    exact ⟨⟨row, hrow, hsound⟩, ⟨row, hrow, hsound⟩⟩
  have hspec : Handles args r decided False (fun s ↦ s = w.opened) (op.2.handler p op.1) :=
    triple_operation htoken hengine hopened hkeeps fun hundecided ↦ (hopen hundecided).2
  have hafter : ∃ row, (ApprovalOp.apply p w op).stored.requests.find r = some row ∧
      Sound args r decided (ApprovalOp.apply p w op).calls row := by
    have hend := hspec w.opened rfl
    unfold ApprovalOp.apply Action.final Approvals.transaction
    cases hresult : op.2.handler p op.1 w.opened with
    | mk result w' =>
      rw [hresult] at hend
      cases result with
      | ok u | error exc => exact hend.1
  obtain ⟨row', hrow', hsound⟩ := hafter
  refine ⟨⟨row', hrow', hsound.1.1⟩, hsound.1.2, fun hdecided ↦ hsound.2 ?_⟩
  intro houtcome
  refine hdecided fun other hother ↦ ?_
  rw [mem_unique hother hrow']
  exact houtcome

/-- The binding of a request survives every run whose operations keep its payload. Whatever is called on its
behalf resumes the node; and the operation that decides it first has resumed the node, when it has found the
node waiting. -/
theorem binding_survives (p : Platform σ) (args : ApprovalNodeCall) (waiting : σ → Prop) (r : ℕ) (w : World σ)
    (ops : List (Time × ApprovalOp)) (hengine : EngineOf p args waiting) (hcreated : CreatedFor args r w)
    (hops : Along (ApprovalOp.apply p) (fun w op ↦ KeepsPayload p args r w.opened op.2) ops w)
    (hwaiting : ∀ before op after, ops = before ++ op :: after → StillOpen p r before w →
      FindsWaiting p waiting r op.1 (play (ApprovalOp.apply p) before w).opened op.2) :
    (∀ before after, ops = before ++ after →
      BindingReadBack args r (play (ApprovalOp.apply p) before w)) ∧
    ∀ before op after, ops = before ++ op :: after →
      OnlyResumes args r (play (ApprovalOp.apply p) (before ++ [op]) w).calls ∧
      (StillOpen p r before w → ¬ Undecided r (play (ApprovalOp.apply p) (before ++ [op]) w) →
        FollowedUp r (play (ApprovalOp.apply p) (before ++ [op]) w).calls) := by
  have hstep : ∀ (s : World σ) op, StoredBound args r s → KeepsPayload p args r s.opened op.2 →
      StoredBound args r (ApprovalOp.apply p s op) := fun s op hs hkeeps ↦
    (hs.apply hcreated.token hengine hkeeps (absurd trivial)).1
  obtain ⟨row, hrow, -, hbound⟩ := hcreated.row
  have hstart : StoredBound args r w := ⟨row, hrow, hbound⟩
  have hreached : ∀ before after, ops = before ++ after →
      StoredBound args r (play (ApprovalOp.apply p) before w) := by
    rintro before after rfl
    exact ((along_append before after w).mp hops).1.invariant hstep hstart
  constructor
  · intro before after hsplit
    obtain ⟨row', hrow', hbound'⟩ := hreached before after hsplit
    exact ⟨row', hrow', getWorkflowBinding_eq hcreated.token hbound'⟩
  · intro before op after hsplit
    have hkeeps : KeepsPayload p args r (play (ApprovalOp.apply p) before w).opened op.2 := by
      subst hsplit
      exact ((along_append before (op :: after) w).mp hops).2.1
    have hfirst : ¬ ¬ StillOpen p r before w → Undecided r (play (ApprovalOp.apply p) before w) ∧
        FindsWaiting p waiting r op.1 (play (ApprovalOp.apply p) before w).opened op.2 := fun hopen ↦
      ⟨not_not.mp hopen before [] (append_nil before).symm, hwaiting before op after hsplit (not_not.mp hopen)⟩
    have happly := (hreached before (op :: after) hsplit).apply hcreated.token hengine hkeeps hfirst
    have hplay : play (ApprovalOp.apply p) (before ++ [op]) w =
        ApprovalOp.apply p (play (ApprovalOp.apply p) before w) op := by
      rw [play_append, play_cons, play_nil]
    rw [hplay]
    exact ⟨happly.2.1, fun hopen hdecided ↦ (happly.2.2 hdecided).resolve_left fun hnot ↦ hnot hopen⟩

/-! ### A held request -/

def approvalNode : ApprovalNodeCall :=
  { tenantId := "tenant", contentJobId := 10, workflowRunId := "run", workflowNodeRunId := "row",
    nodeId := "approve", resumeToken := "token" }

/-- The state in which `request` is the only request, with the id 1. -/
def requestIn (rest : σ) (request : ApprovalRequest) : World σ :=
  let db : Db σ := { requests := .single 1 request, rest := rest }
  { db := db, stored := db }

abbrev oneRequest (request : ApprovalRequest) : World Unit := requestIn () request

def boundRequestRow : ApprovalRequest :=
  { tenantId := "tenant", contentJobId := some 10, recipient := "recipient"
    responsePayloadJson := [("risk_label", .str "low"), ("workflow", .obj approvalNode.binding)] }

def button (data : String) : Time × ApprovalOp := (0, .inbound (.telegramCallback data "chat"))

theorem createdFor_boundRequestRow (rest : σ) : CreatedFor approvalNode 1 (requestIn rest boundRequestRow) where
  token := by decide
  row := by
    refine ⟨boundRequestRow, rfl, rfl, rfl, ?_⟩
    exact ⟨⟨("workflow", .obj approvalNode.binding), by decide, rfl⟩, by decide⟩

/-- Holding the request drops the binding while it is pending; the approval that follows publishes and does
not resume the node. -/
theorem held_loses_binding :
    CreatedFor approvalNode 1 (oneRequest boundRequestRow) ∧
    (((ApprovalOp.apply (mockPlatform [])) (oneRequest boundRequestRow)
        (button "hold_topic:1")).stored.requests.find 1).map (fun row ↦ (row.status, getWorkflowBinding row)) =
      some (.pending, none) ∧
    ¬ BindingReadBack approvalNode 1
      (play (ApprovalOp.apply (mockPlatform [])) [button "hold_topic:1"] (oneRequest boundRequestRow)) ∧
    (play (ApprovalOp.apply (mockPlatform [])) [button "hold_topic:1", button "approve:1"]
      (oneRequest boundRequestRow)).calls = [.publishNow 1, .published 1] := by
  have hheld : (((ApprovalOp.apply (mockPlatform [])) (oneRequest boundRequestRow)
        (button "hold_topic:1")).stored.requests.find 1).map (fun row ↦ (row.status, getWorkflowBinding row)) =
      some (.pending, none) := by decide +kernel
  refine ⟨createdFor_boundRequestRow (), hheld, ?_, by decide +kernel⟩
  rintro ⟨row, hrow, hbinding⟩
  rw [play_cons, play_nil] at hrow
  rw [hrow, map_some, hbinding] at hheld
  exact absurd (Prod.mk.inj (Option.some.inj hheld)).2 (some_ne_none _)

/-- The condition on a button, when it is known which request it names. -/
theorem keepsPayload_button {data cbChatId identifier : String} {request : ApprovalRequest}
    (hverify : verifySignedCallbackData p data = (true, intent, identifier))
    (hparse : p.parseUuid identifier = some id) (hrequest : w.request id = some request)
    (h : KeepsPayloadButton p r w id request intent) :
    KeepsPayload p args r w (.inbound (.telegramCallback data cbChatId)) := by
  intro intent' identifier' id' request' hverify' hparse' hrequest'
  obtain ⟨-, rfl, rfl⟩ : True ∧ intent = intent' ∧ identifier = identifier' := by
    simpa [hverify] using hverify'
  obtain rfl : id = id' := mem_unique hparse hparse'
  obtain rfl : request = request' := mem_unique hrequest hrequest'
  exact h

/-- The rest of the database says whether the node is waiting; the engine resumes it once. -/
def waitingPlatform : Platform Bool :=
  { mockPlatform [] with
    resumeWaitingNode := fun _ _ _ _ waiting ↦
      if waiting then { result := .ok (), rest := false }
      else { result := .error (httpException 409 "Node is not waiting"), rest := waiting } }

theorem engineOf_waitingPlatform : EngineOf waitingPlatform approvalNode fun waiting ↦ waiting = true where
  accepts _ _ _ _ hwaiting := by
    subst hwaiting
    rfl
  uncommitted _ _ waiting := by cases waiting <;> rfl
  preference _ _ _ _ hwaiting := hwaiting

/-- A request whose notes are asked for and which is then approved resumes its node. -/
theorem revised_keeps_binding :
    (BindingReadBack approvalNode 1
      (play (ApprovalOp.apply waitingPlatform) [button "revise:1", button "approve:1"]
        (requestIn true boundRequestRow))) ∧
    (FollowedUp 1 (play (ApprovalOp.apply waitingPlatform) [button "revise:1", button "approve:1"]
      (requestIn true boundRequestRow)).calls) := by
  have hkeeps : Along (ApprovalOp.apply waitingPlatform)
      (fun w op ↦ KeepsPayload waitingPlatform approvalNode 1 w.opened op.2)
      [button "revise:1", button "approve:1"] (requestIn true boundRequestRow) := by
    have hrequest : (ApprovalOp.apply waitingPlatform (requestIn true boundRequestRow)
        (button "revise:1")).opened.request 1 = some boundRequestRow := by decide +kernel
    have htopic : boundRequestRow.topicEntity = none := rfl
    refine ⟨keepsPayload_button (show _ = (true, "revise", "1") by decide +kernel) rfl rfl
      ⟨fun _ ↦ ?_, fun h ↦ absurd h (by decide)⟩, keepsPayload_button (show _ = (true, "approve", "1") by
        decide +kernel) rfl hrequest ⟨fun _ ↦ ?_, fun h ↦ absurd h (by decide)⟩, trivial⟩
    · rintro (h | ⟨h, -⟩)
      · exact absurd h (by decide)
      · exact absurd h (by decide)
    · rintro (h | ⟨-, entityId, hentity, -⟩)
      · exact absurd h (by decide)
      · exact absurd (htopic.symm.trans hentity) (some_ne_none entityId).symm
  -- the node is waiting as long as nothing has been decided
  have hwaiting : ∀ before op after, [button "revise:1", button "approve:1"] = before ++ op :: after →
      (play (ApprovalOp.apply waitingPlatform) before (requestIn true boundRequestRow)).stored.rest = true := by
    intro before op after hsplit
    rcases before with _ | ⟨first, _ | ⟨second, rest⟩⟩
    · rfl
    · obtain ⟨rfl, -⟩ := List.cons.inj hsplit
      decide +kernel
    · have hlength := congrArg length hsplit
      simp only [length_cons, length_nil, length_append] at hlength
      omega
  have hopen : ∀ before after, [button "revise:1"] = before ++ after →
      ((play (ApprovalOp.apply waitingPlatform) before (requestIn true boundRequestRow)).stored.requests.find 1).map
        (fun row ↦ row.status.outcome) = some none := by
    intro before after hsplit
    rcases before with _ | ⟨first, rest⟩
    · rfl
    · obtain ⟨rfl, hrest⟩ := List.cons.inj hsplit
      obtain ⟨rfl, -⟩ := append_eq_nil_iff.mp hrest.symm
      decide +kernel
  have hrun := binding_survives waitingPlatform approvalNode (fun waiting ↦ waiting = true) 1
    (requestIn true boundRequestRow) [button "revise:1", button "approve:1"] engineOf_waitingPlatform
    (createdFor_boundRequestRow true) hkeeps fun before op after hsplit _ ↦ ?_
  · refine ⟨hrun.1 _ [] rfl, (hrun.2 [button "revise:1"] (button "approve:1") [] rfl).2 ?_ fun hundecided ↦ ?_⟩
    · intro before after hsplit row hrow
      have hstatus := hopen before after hsplit
      rw [hrow] at hstatus
      exact Option.some.inj hstatus
    · have happroved : ((play (ApprovalOp.apply waitingPlatform) ([button "revise:1"] ++ [button "approve:1"])
          (requestIn true boundRequestRow)).stored.requests.find 1).map (fun row ↦ row.status.outcome) =
          some (some "approved") := by decide +kernel
      obtain ⟨row, hrow, houtcome⟩ := map_eq_some_iff.mp happroved
      exact absurd ((hundecided row hrow).symm.trans houtcome) nofun
  · have hop : op = button "revise:1" ∨ op = button "approve:1" := by
      have hmem : op ∈ [button "revise:1", button "approve:1"] := by
        rw [hsplit]
        exact mem_append_right before mem_cons_self
      simpa only [mem_cons, not_mem_nil, or_false] using hmem
    rcases hop with rfl | rfl
    · exact fun _ _ _ _ _ _ _ _ ↦ hwaiting before _ after hsplit
    · exact fun _ _ _ _ _ _ _ _ ↦ hwaiting before _ after hsplit

end ContentGenerator.Approvals
