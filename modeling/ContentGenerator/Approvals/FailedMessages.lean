import ContentGenerator.Approvals.ClosedRequests

/-!
# A WhatsApp message that fails

When a message of an inbox row raises, the error handler of `process_webhook_inbox` commits the session as it
is. `assignedStatus` is the status the message has assigned by then; an approval that fails has no follow-up
(`triple_approve_followUps`). `failed_message_decides_nothing_iff` says when the failure leaves the statuses of
all requests as they were, and no approval without its follow-up.
-/

namespace ContentGenerator.Approvals

open Lib Lib.Action Workflows List Option ApprovalRequest
open InboundMessage (apply)
open Prod (mk)

variable {exc : PyException} {intent tenantId : String} {message : ParsedWhatsAppMessage}
  {f : ApprovalRequest → ApprovalRequest} {σ : Type}

/-! ### The statuses of the requests -/

def World.statuses (w : World σ) (id : ℕ) : Option ApprovalStatus := (w.request id).map ApprovalRequest.status

def HasStatuses (statuses : ℕ → Option ApprovalStatus) (w : World σ) : Prop := w.statuses = statuses

def assign (statuses : ℕ → Option ApprovalStatus) (id : ℕ) (status : ApprovalStatus) :
    ℕ → Option ApprovalStatus := fun other ↦ if other = id then some status else statuses other

variable {p : Platform σ} {w : World σ} {statuses : ℕ → Option ApprovalStatus} {id : ℕ}
  {status : ApprovalStatus}

/-- A change of a request that has this status afterwards. -/
theorem statuses_update (hrequest : w.request id ≠ none)
    (hf : ∀ row, (f row).status = status) : (w.update id f).statuses = assign w.statuses id status := by
  funext other
  obtain ⟨row, hrow⟩ := ne_none_iff_exists'.mp hrequest
  unfold World.statuses assign
  by_cases hother : other = id
  · rw [if_pos hother, hother, request_update_of hrow, map_some, hf row]
  · rw [if_neg hother, request_update_of_ne w f hother]

/-- A change of a request that keeps its status. -/
theorem statuses_update_of_eq
    (hf : ∀ row, w.request id = some row → (f row).status = row.status) :
    (w.update id f).statuses = w.statuses := by
  funext other
  unfold World.statuses
  by_cases hother : other = id
  · rw [hother, request_update_self]
    cases hrow : w.request id with
    | none => rfl
    | some row => exact congrArg some (hf row hrow)
  · rw [request_update_of_ne w f hother]

theorem keeps_statuses_call {α : Type} (f : σ → Reply σ α) : Keeps (HasStatuses statuses) (call f) :=
  fun _ hw ↦ hw

theorem keeps_statuses_callFor {made returned : ServiceCall} {f : σ → Reply σ Unit} :
    Keeps (HasStatuses statuses) (callFor made returned f) :=
  keeps_bind (keeps_modify fun _ hw ↦ hw) fun _ ↦ keeps_bind (keeps_statuses_call f) fun _ ↦
    keeps_modify fun _ hw ↦ hw

theorem keeps_statuses_update (hf : ∀ row, (f row).status = row.status) :
    Keeps (HasStatuses (σ := σ) statuses) (updateRequest id f) := fun _ hw ↦
  (statuses_update_of_eq fun row _ ↦ hf row).trans hw

theorem keeps_statuses_maybeResume :
    Keeps (HasStatuses statuses) (maybeResumeWorkflowFromApproval p id) :=
  keeps_maybeResume_of fun _ _ _ _ _ _ _ ↦ keeps_statuses_callFor

/-- A request that is not decided resumes nothing, and nothing is raised. -/
theorem maybeResume_of_undecided (h : ∀ status, w.statuses id = some status → status.outcome = none) :
    maybeResumeWorkflowFromApproval p id w = (.ok (), w) := by
  refine (bind_of_ok (show getRequestById id w = (.ok (w.request id), w) from rfl)).trans ?_
  cases hrequest : w.request id with
  | none => rfl
  | some request =>
    have houtcome := h request.status (by rw [World.statuses, hrequest]; rfl)
    dsimp only
    rw [houtcome]
    cases getWorkflowBinding request <;> rfl

/-! ### The part of a decision that can raise -/

variable {request : ApprovalRequest} {job : ℕ} {now : Time}

theorem keeps_statuses_publishApproved :
    Keeps (HasStatuses statuses) (publishApproved p id request job) :=
  keeps_publishApproved_of fun _ ↦ keeps_statuses_callFor

/-- An approval assigns its status first. -/
theorem triple_applyApprove_statuses (hrequest : w.request id ≠ none) :
    Triple (fun s ↦ s = w) (applyApprove p id) (fun _ ↦ HasStatuses (assign w.statuses id .approved))
      (HasStatuses (assign w.statuses id .approved)) := by
  refine triple_bind (m := fun _ ↦ HasStatuses (assign w.statuses id .approved)) (triple_modify ?_)
    fun _ ↦ Keeps.triple (keeps_read_bind fun s _ ↦ ?_)
  · rintro _ rfl
    exact statuses_update hrequest fun _ ↦ rfl
  · cases s.request id with
    | none => exact keeps_pure ()
    | some request =>
      dsimp only
      cases request.contentJobId with
      | none => exact keeps_pure ()
      | some job =>
        exact keeps_bind (keeps_modify fun _ hw ↦ hw) fun _ ↦
          keeps_ite (fun _ ↦ keeps_pure ()) fun _ ↦ keeps_statuses_publishApproved

/-- A rejection assigns its status first. -/
theorem triple_applyReject_statuses (hrequest : w.request id ≠ none) :
    Triple (fun s ↦ s = w) (applyReject p id) (fun _ ↦ HasStatuses (assign w.statuses id .rejected))
      (HasStatuses (assign w.statuses id .rejected)) := by
  refine triple_bind (m := fun _ ↦ HasStatuses (assign w.statuses id .rejected)) (triple_modify ?_)
    fun _ ↦ Keeps.triple (keeps_read_bind fun s _ ↦ ?_)
  · rintro _ rfl
    exact statuses_update hrequest fun _ ↦ rfl
  · cases s.request id with
    | none => exact keeps_pure ()
    | some request =>
      dsimp only
      cases request.contentJobId with
      | none => exact keeps_pure ()
      | some job => exact keeps_modify fun _ hw ↦ hw

/-! ### Revisions -/

theorem assign_assign (status' : ApprovalStatus) :
    assign (assign statuses id status) id status' = assign statuses id status' := by
  funext other
  unfold assign
  split_ifs <;> rfl

theorem assign_eq_self (h : statuses id = some status) : assign statuses id status = statuses := by
  funext other
  unfold assign
  split_ifs with hother
  · rw [hother, h]
  · rfl

theorem requestForContentJob_eq {row : ApprovalRequest} (hrow : w.request id = some row)
    (hjob : row.contentJobId = some job)
    (honly : ∀ other row, w.request other = some row → row.contentJobId = some job → other = id) :
    w.requestForContentJob job = some id := by
  cases hfound : w.requestForContentJob job with
  | some found =>
    obtain ⟨row', hrow', hjob'⟩ := exists_of_requestForContentJob hfound
    rw [honly found row' hrow' hjob']
  | none =>
    have hnone := find?_eq_none.mp (map_eq_none_iff.mp hfound) (id, row)
      (mem_reverse.mpr ((KeyedTable.find_eq_some_iff _ _ _).mp hrow))
    exact absurd (decide_eq_true hjob) hnone

theorem keeps_statuses_deliverAll (channels : List String) :
    Keeps (HasStatuses statuses) (deliverAll p tenantId id job channels) :=
  keeps_deliverAll_of (fun _ ↦ keeps_statuses_update fun _ ↦ rfl) tenantId job channels

/-- The request is the only one for the content job, and pending. -/
structure OnlyFor (job id : ℕ) (statuses : ℕ → Option ApprovalStatus) (w : World σ) : Prop where
  statuses : HasStatuses statuses w
  row : ∃ row, w.request id = some row ∧ row.contentJobId = some job
  only : ∀ other row, w.request other = some row → row.contentJobId = some job → other = id

/-- Sending a pending request again leaves all statuses as they are. -/
theorem triple_sendForApproval_statuses
    {recipient : Option String} {channels : List String} {deliver : Bool}
    (hpending : statuses id = some .pending) :
    Triple (OnlyFor job id statuses) (sendForApproval p now tenantId job recipient channels deliver)
      (fun _ ↦ HasStatuses statuses) (HasStatuses statuses) := by
  have hpre : ∀ s : World σ, OnlyFor job id statuses s → HasStatuses statuses s := fun _ hs ↦ hs.statuses
  refine triple_bind (triple_readOr hpre) fun configured ↦ triple_ite (fun _ ↦ triple_raise hpre) fun _ ↦ ?_
  refine triple_read_bind fun s _ ↦ ?_
  cases p.groundingBundle tenantId job s.db.rest with
  | none => exact triple_raise hpre
  | some grounding =>
    refine triple_ite (fun _ ↦ triple_raise hpre) fun _ ↦ triple_read_bind fun _ _ ↦ ?_
    refine triple_bind (m := fun _ ↦ HasStatuses statuses) (triple_read_bind_eq fun s hs ↦ ?_) fun sent ↦
      Keeps.triple ?_
    · obtain ⟨row, hrow, hjob⟩ := hs.row
      have hfound : s.requestToRefresh tenantId (some job) "asset" (some "content_job")
          (some (p.uuidText job)) = some id := requestForContentJob_eq hrow hjob hs.only
      rw [hfound]
      refine triple_bind (m := fun _ ↦ HasStatuses statuses) (triple_modify ?_) fun _ ↦
        triple_pure fun _ hs ↦ hs
      rintro s' rfl
      have hsame : assign s'.statuses id .pending = statuses :=
        (congrArg (fun statuses ↦ assign statuses id .pending) hs.statuses).trans (assign_eq_self hpending)
      refine (statuses_update ?_ ?_).trans hsame
      · exact hrow ▸ some_ne_none row
      · exact fun _ ↦ rfl
    · refine keeps_bind (keeps_ite (fun _ ↦ keeps_statuses_deliverAll _) fun _ ↦ keeps_pure ()) fun _ ↦ ?_
      exact keeps_bind (keeps_statuses_update fun _ ↦ rfl) fun _ ↦
        keeps_bind (keeps_modify fun _ hw ↦ hw) fun _ ↦ keeps_pure _

/-- What `regenerate_with_feedback` answers to a revision of the request. -/
def regenerated (p : Platform σ) (request : ApprovalRequest) (job : ℕ) (feedback : String) (rest : σ) :
    Except PyException ℕ :=
  (p.regenerateWithFeedback request.tenantId job feedback request.channel
    (p.recordPreference request.tenantId job "revise" rest)).result

/-- The status a revision with content leaves behind: it depends on whether the content is regenerated. -/
def revisedStatus (p : Platform σ) (request : ApprovalRequest) (job : ℕ) (feedback : String) (rest : σ) :
    ApprovalStatus :=
  match regenerated p request job feedback rest with
  | .ok _ => .pending
  | .error _ => .revisionRequested

theorem stampWorkflowBinding_fields (binding : Option JsonObject) (row : ApprovalRequest) :
    (stampWorkflowBinding binding row).status = row.status ∧
      (stampWorkflowBinding binding row).contentJobId = row.contentJobId := by
  unfold stampWorkflowBinding
  cases binding.filter (· ≠ []) <;> exact ⟨rfl, rfl⟩

theorem triple_reviseContent_statuses {feedback : String} (hstatus : w.statuses id = some .revisionRequested)
    (hfresh : ∀ revised, regenerated p request job feedback w.db.rest = .ok revised →
      ∀ other row, w.request other = some row → row.contentJobId ≠ some revised) :
    Triple (fun s ↦ s = w) (reviseContent p now id feedback request job)
      (fun _ ↦ HasStatuses (assign w.statuses id .pending))
      (HasStatuses (assign w.statuses id (revisedStatus p request job feedback w.db.rest))) := by
  refine triple_bind (m := fun _ s ↦ s = { w with
    db := { w.db with rest := p.recordPreference request.tenantId job "revise" w.db.rest } })
    (triple_modify (by rintro _ rfl; rfl)) fun _ ↦ triple_call_bind (fun revised hrevised ↦ ?_) fun exc hexc ↦ ?_
  · have hanswer : regenerated p request job feedback w.db.rest = .ok revised := hrevised
    have hpending : revisedStatus p request job feedback w.db.rest = .pending := by
      rw [revisedStatus, hanswer]
    rw [hpending]
    have hsend : ∀ channels : List String, Triple
        (OnlyFor revised id (assign w.statuses id .pending))
        (do
          let _ ← sendForApproval p now request.tenantId revised (some request.recipient) channels true
          updateRequest id (stampWorkflowBinding (getWorkflowBinding request)))
        (fun _ ↦ HasStatuses (assign w.statuses id .pending))
        (HasStatuses (assign w.statuses id .pending)) := fun channels ↦
      triple_bind (triple_sendForApproval_statuses (if_pos rfl)) fun _ ↦
        (keeps_statuses_update fun row ↦ (stampWorkflowBinding_fields _ row).1).triple
    refine triple_bind (m := fun _ ↦ OnlyFor revised id (assign w.statuses id .pending))
      (triple_modify ?_) fun _ ↦ ?_
    · rintro s rfl
      obtain ⟨row, hrow, -⟩ := map_eq_some_iff.mp hstatus
      refine ⟨statuses_update (hrow ▸ some_ne_none row) fun _ ↦ (stampWorkflowBinding_fields _ _).1,
        ⟨_, request_update_of hrow, (stampWorkflowBinding_fields _ _).2⟩, fun other row' hrow' hjob ↦ ?_⟩
      by_contra hother
      exact hfresh revised hanswer other row' ((request_update_of_ne _ _ hother).symm.trans hrow') hjob
    · cases (getWorkflowBinding request).map bindingChannels with
      | none => exact hsend _
      | some channels =>
        cases channels with
        | none => exact triple_raise fun _ hs ↦ hs.statuses
        | some items => exact hsend _
  · have hanswer : regenerated p request job feedback w.db.rest = .error exc := hexc
    have hrequested : revisedStatus p request job feedback w.db.rest = .revisionRequested := by
      rw [revisedStatus, hanswer]
    rw [hrequested, assign_eq_self hstatus]
    rfl

/-! ### The status a failing message has assigned -/

def assignedStatus (p : Platform σ) (request : ApprovalRequest) (intent : String) (feedback : Option String)
    (rest : σ) : ApprovalStatus :=
  if intent = "approve" then .approved
  else if intent = "reject" ∨ refusesRevision request then .rejected
  else
    match request.contentJobId with
    | none => .revisionRequested
    | some job => revisedStatus p request job (feedback.getD "") rest

/-- A revision of a request with a content job. -/
theorem triple_applyRevise_of_job {text : String} (hrequest : w.request id = some request)
    (hrefuses : ¬ refusesRevision request = true) (hjob : request.contentJobId = some job)
    (hfresh : ∀ revised, regenerated p request job text w.db.rest = .ok revised →
      ∀ other row, w.request other = some row → row.contentJobId ≠ some revised) :
    Triple (fun s ↦ s = w) (applyRevise p now id text) (fun _ ↦ HasStatuses (assign w.statuses id .pending))
      (HasStatuses (assign w.statuses id (revisedStatus p request job text w.db.rest))) := by
  refine triple_read_bind fun s hs ↦ ?_
  rw [hs, hrequest]
  refine triple_ite (fun h ↦ absurd h hrefuses) fun _ ↦ triple_bind
    (m := fun _ s ↦ s = w.update id beginRevision) (triple_modify (by rintro _ rfl; rfl)) fun _ ↦ ?_
  rw [hjob]
  have hassign : (w.update id beginRevision).statuses = assign w.statuses id .revisionRequested :=
    statuses_update (hrequest ▸ some_ne_none request) fun _ ↦ rfl
  have hstarted : (w.update id beginRevision).statuses id = some .revisionRequested := by
    rw [hassign]
    exact if_pos rfl
  refine (triple_reviseContent_statuses hstarted fun revised hok other row hrow hrowJob ↦ ?_).mono
    (fun _ hs ↦ hs) (fun _ s hs ↦ ?_) fun s hs ↦ ?_
  · by_cases hother : other = id
    · subst hother
      rw [request_update_of hrequest] at hrow
      cases hrow
      exact hfresh revised hok other request hrequest hrowJob
    · rw [request_update_of_ne w _ hother] at hrow
      exact hfresh revised hok other row hrow hrowJob
  · rw [hassign, assign_assign] at hs
    exact hs
  · rw [hassign, assign_assign] at hs
    exact hs

/-- A revision that fails, alone or in the resume that follows. -/
theorem triple_applyRevise_statuses {text : String}
    (hrequest : w.request id = some request) (happrove : intent ≠ "approve") (hreject : intent ≠ "reject")
    (hfresh : ∀ job revised, regenerated p request job text w.db.rest = .ok revised →
      ∀ other row, w.request other = some row → row.contentJobId ≠ some revised) :
    Triple (fun s ↦ s = w) (do applyRevise p now id text; maybeResumeWorkflowFromApproval p id)
      (fun _ _ ↦ True)
      (HasStatuses (assign w.statuses id (assignedStatus p request intent (some text) w.db.rest))) := by
  have hsome : w.request id ≠ none := hrequest ▸ some_ne_none request
  by_cases hrefuses : refusesRevision request = true
  · have hstatus : assignedStatus p request intent (some text) w.db.rest = .rejected :=
      (if_neg happrove).trans (if_pos (.inr hrefuses))
    rw [hstatus]
    refine triple_bind (m := fun _ ↦ HasStatuses (assign w.statuses id .rejected)) ?_ fun _ ↦
      keeps_statuses_maybeResume.triple.mono (fun _ hs ↦ hs) (fun _ _ _ ↦ trivial) fun _ hs ↦ hs
    refine triple_read_bind fun s hs ↦ ?_
    rw [hs, hrequest]
    refine triple_ite (fun _ ↦ triple_modify ?_) fun hnot ↦ absurd hrefuses hnot
    rintro _ rfl
    exact statuses_update hsome fun _ ↦ rfl
  · have hstatus : assignedStatus p request intent (some text) w.db.rest =
        match request.contentJobId with
        | none => .revisionRequested
        | some job => revisedStatus p request job text w.db.rest :=
      (if_neg happrove).trans (if_neg (not_or.mpr ⟨hreject, hrefuses⟩))
    rw [hstatus]
    cases hjob : request.contentJobId with
    | none =>
      refine triple_bind (m := fun _ ↦ HasStatuses (assign w.statuses id .revisionRequested)) ?_ fun _ ↦
        keeps_statuses_maybeResume.triple.mono (fun _ hs ↦ hs) (fun _ _ _ ↦ trivial) fun _ hs ↦ hs
      refine triple_read_bind fun s hs ↦ ?_
      rw [hs, hrequest]
      refine triple_ite (fun h ↦ absurd h hrefuses) fun _ ↦ triple_bind
        (m := fun _ ↦ HasStatuses (assign w.statuses id .revisionRequested)) (triple_modify ?_) fun _ ↦ ?_
      · rintro _ rfl
        exact statuses_update hsome fun _ ↦ rfl
      dsimp only
      rw [hjob]
      exact triple_pure fun _ hs ↦ hs
    | some job =>
      refine triple_bind (triple_applyRevise_of_job hrequest hrefuses hjob (hfresh job)) fun _ s hs ↦ ?_
      rw [maybeResume_of_undecided]
      · trivial
      · intro status hstatus
        rw [hs, assign, if_pos rfl] at hstatus
        rw [← Option.some.inj hstatus]
        rfl

theorem triple_applyIntent_statuses {feedback : Option String}
    (hrequest : w.request id = some request)
    (hfresh : ∀ job revised, regenerated p request job (feedback.getD "") w.db.rest = .ok revised →
      ∀ other row, w.request other = some row → row.contentJobId ≠ some revised) :
    Triple (fun s ↦ s = w) (applyIntent p now id intent feedback) (fun _ _ ↦ True)
      (HasStatuses (assign w.statuses id (assignedStatus p request intent feedback w.db.rest))) := by
  have hsome : w.request id ≠ none := hrequest ▸ some_ne_none request
  have htrue : ∀ {statuses : ℕ → Option ApprovalStatus} {action : Approval σ Unit},
      Triple (fun s ↦ s = w) action (fun _ ↦ HasStatuses statuses) (HasStatuses statuses) →
      Triple (fun s ↦ s = w) (do action; maybeResumeWorkflowFromApproval p id) (fun _ _ ↦ True)
        (HasStatuses statuses) := fun h ↦
    triple_bind h fun _ ↦ keeps_statuses_maybeResume.triple.mono (fun _ hs ↦ hs) (fun _ _ _ ↦ trivial)
      fun _ hs ↦ hs
  unfold applyIntent
  cases haction : intentAction p now id intent feedback with
  | none => exact triple_pure fun _ _ ↦ trivial
  | some action =>
    unfold intentAction at haction
    split_ifs at haction with happrove hrevise hreject
    · cases haction
      have hstatus : assignedStatus p request intent feedback w.db.rest = .approved := if_pos happrove
      rw [hstatus]
      exact htrue (triple_applyApprove_statuses hsome)
    · obtain ⟨text, htext, rfl⟩ := map_eq_some_iff.mp haction
      obtain rfl : feedback = some text := (filter_eq_some_iff.mp htext).1
      exact triple_applyRevise_statuses hrequest happrove (by rw [hrevise]; decide) hfresh
    · cases haction
      have hstatus : assignedStatus p request intent feedback w.db.rest = .rejected :=
        (if_neg happrove).trans (if_pos (.inl hreject))
      rw [hstatus]
      exact htrue (triple_applyReject_statuses hsome)

/-! ### The follow-up of an approval that fails -/

def SameFollowUps (calls : List ServiceCall) (w : World σ) : Prop :=
  ∀ id, FollowedUp id w.calls ↔ FollowedUp id calls

variable {calls : List ServiceCall}

/-- A call that has not returned is no follow-up. -/
theorem SameFollowUps.note {call : ServiceCall} (h : SameFollowUps calls w) (hcall : call.followsUp = false) :
    SameFollowUps calls { w with calls := w.calls ++ [call] } := by
  refine fun id ↦ Iff.trans ⟨?_, fun hfollowed ↦ hfollowed.append call⟩ (h id)
  rintro ⟨other, hother, hid, hfollows⟩
  rcases mem_append.mp hother with hold | hnew
  · exact ⟨other, hold, hid, hfollows⟩
  · rw [mem_singleton.mp hnew, hcall] at hfollows
    exact absurd hfollows Bool.false_ne_true

/-- A call that raises adds no follow-up. -/
theorem triple_callFor_followUps {made returned : ServiceCall} {f : σ → Reply σ Unit}
    (hmade : made.followsUp = false) :
    Triple (fun s ↦ SameFollowUps calls s ∧ s.request id = some request) (callFor made returned f)
      (fun _ s ↦ s.request id = some request) (SameFollowUps calls) := by
  refine triple_bind (m := fun _ s ↦ SameFollowUps calls s ∧ s.request id = some request)
    (triple_modify fun s hs ↦ ⟨hs.1.note hmade, hs.2⟩) fun _ s hs ↦ ?_
  exact triple_call_bind (fun _ _ ↦ triple_modify (by rintro _ rfl; exact hs.2)) (fun _ _ ↦ hs.1) s rfl

theorem triple_publishApproved_followUps :
    Triple (fun s ↦ SameFollowUps calls s ∧ s.request id = some request) (publishApproved p id request job)
      (fun _ s ↦ s.request id = some request) (SameFollowUps calls) := by
  refine triple_ite (fun _ ↦ ?_) fun _ ↦ triple_ite (fun _ ↦ triple_callFor_followUps rfl) fun _ ↦
    triple_pure fun _ hs ↦ hs.2
  exact triple_bind (triple_readOr fun _ hs ↦ hs.1) fun platforms ↦
    triple_bind (triple_readOr fun _ hs ↦ hs.1) fun scheduledFor ↦ triple_callFor_followUps rfl

theorem triple_maybeResume_followUps :
    Triple (SameFollowUps (σ := σ) calls) (maybeResumeWorkflowFromApproval p id) (fun _ _ ↦ True)
      (SameFollowUps calls) := by
  refine triple_read_bind_eq fun w hw ↦ ?_
  cases hrequest : w.request id with
  | none => exact triple_pure fun _ _ ↦ trivial
  | some request =>
    dsimp only
    cases getWorkflowBinding request with
    | none => exact triple_pure fun _ _ ↦ trivial
    | some binding =>
      cases request.status.outcome with
      | none => exact triple_pure fun _ _ ↦ trivial
      | some outcome =>
        dsimp only
        cases bindingChannels binding with
        | none => exact triple_raise (at_state hw)
        | some channels =>
          have hpre : ∀ s, s = w → SameFollowUps calls s ∧ s.request id = some request := at_state ⟨hw, hrequest⟩
          exact (triple_callFor_followUps rfl).mono hpre (fun _ _ _ ↦ trivial) fun _ hs ↦ hs

/-- An approval that fails has no follow-up: what the node or the publishing was asked for has not returned. -/
theorem triple_approve_followUps (hrequest : w.request id = some request) :
    Triple (fun s ↦ s = w) (do applyApprove p id; maybeResumeWorkflowFromApproval p id)
      (fun _ _ ↦ True) (SameFollowUps w.calls) := by
  have happroved : ∀ s, s = w → SameFollowUps w.calls (s.update id fun row ↦ { row with status := .approved }) ∧
      (s.update id fun row ↦ { row with status := .approved }).request id =
        some { request with status := .approved } := by
    rintro _ rfl
    exact ⟨fun _ ↦ Iff.rfl, request_update_of hrequest⟩
  generalize hrow : { request with status := ApprovalStatus.approved } = row at happroved
  -- what is left to do: to resume the node, or nothing
  refine triple_bind (m := fun _ s ↦ SameFollowUps w.calls s ∨
    s.request id = some row ∧ getWorkflowBinding row = none) (triple_bind
      (m := fun _ s ↦ SameFollowUps w.calls s ∧ s.request id = some row) (triple_modify happroved) fun _ ↦
      triple_read_bind fun s hs ↦ ?_) fun _ s hs ↦ ?_
  · rw [hs.2]
    dsimp only
    cases row.contentJobId with
    | none => exact triple_pure fun _ hs ↦ .inl hs.1
    | some job =>
      refine triple_bind (m := fun _ s ↦ SameFollowUps w.calls s ∧ s.request id = some row)
        (triple_modify fun _ hs ↦ hs) fun _ ↦ triple_ite (fun _ ↦ triple_pure fun _ hs ↦ .inl hs.1) fun hunbound ↦ ?_
      exact triple_publishApproved_followUps.mono (fun _ hs ↦ hs)
        (fun _ _ hs ↦ .inr ⟨hs, not_isSome_iff_eq_none.mp hunbound⟩) fun _ hs ↦ hs
  · rcases hs with hsame | ⟨hrequest', hunbound⟩
    · exact triple_maybeResume_followUps s hsame
    · rw [maybeResume_of_unbound hrequest' hunbound]
      trivial

/-! ### The inbox row -/

/-- A failing message ends the processing of the inbox row, and what it has done is committed. -/
theorem processWebhookInbox_of_failure {inboxId : ℕ} {before after : List ParsedWhatsAppMessage}
    {w₁ w₂ : World σ}
    (hmessages : inboxMessages p inboxId w = before ++ message :: after)
    (hbefore : forEach before (applyMessage p now) (w.processing inboxId) = (.ok (), w₁))
    (hfails : applyMessage p now message w₁ = (.error exc, w₂)) :
    ∃ w₃ : World σ, processWebhookInbox p now inboxId w = (.error exc, w₃) ∧
      w₃.stored.requests = w₂.db.requests ∧ w₃.calls = w₂.calls := by
  have hnone : ([] : List ParsedWhatsAppMessage) ≠ before ++ message :: after := by
    intro h
    exact cons_ne_nil _ _ (append_eq_nil_iff.mp h.symm).2
  have hread : (Action.read fun w : World σ ↦ w.db.inbox.find inboxId : Approval σ (Option WebhookInbox)) w =
      (.ok (w.db.inbox.find inboxId), w) := rfl
  unfold inboxMessages at hmessages
  unfold processWebhookInbox
  rw [bind_of_ok hread]
  cases hinbox : w.db.inbox.find inboxId with
  | none =>
    rw [hinbox] at hmessages
    exact absurd hmessages hnone
  | some inbox =>
    rw [hinbox] at hmessages
    dsimp only at hmessages ⊢
    split_ifs at hmessages with hskipped
    · exact absurd hmessages hnone
    rw [not_or] at hskipped
    rw [if_neg hskipped.1, if_neg hskipped.2]
    cases hparse : p.whatsappParser inbox.tenantId w.db.rest with
    | error exc' =>
      rw [hparse] at hmessages
      exact absurd hmessages hnone
    | ok parse =>
      rw [hparse] at hmessages
      dsimp only at hmessages
      cases hraw : parse inbox.raw with
      | error exc' =>
        rw [hraw] at hmessages
        exact absurd hmessages hnone
      | ok messages =>
        rw [hraw] at hmessages
        have hask : ask (p.whatsappParser inbox.tenantId) w = (.ok parse, w) := Prod.ext hparse rfl
        have hstart : updateInbox inboxId (fun inbox ↦ { inbox with status := "processing" }) w =
            (.ok (), w.processing inboxId) := rfl
        have happly : applyMessages p now parse inbox.raw (w.processing inboxId) = (.error exc, w₂) := by
          have hread' : (Action.readOr fun _ ↦ parse inbox.raw : Approval σ (List ParsedWhatsAppMessage))
              (w.processing inboxId) = (.ok messages, w.processing inboxId) := Prod.ext hraw rfl
          unfold applyMessages
          rw [bind_of_ok hread', show messages = before ++ message :: after from hmessages]
          exact forEach_of_error hbefore hfails
        rw [bind_of_ok hask, bind_of_ok hstart, bind_of_error ((tryCatch_of_error happly).trans rfl)]
        exact ⟨_, rfl, rfl, rfl⟩

/-- The request a failing message is about. -/
theorem exists_request_of_failure
    {w' : World σ} (hfails : applyMessage p now message w = (.error exc, w')) :
    ∃ id request, messageRequest p message = some id ∧ w.request id = some request ∧
      applyIntent p now id message.intent message.feedback w = (.error exc, w') := by
  unfold applyMessage at hfails
  cases hid : messageRequest p message with
  | none =>
    rw [hid] at hfails
    exact absurd (mk.inj hfails).1 nofun
  | some id =>
    rw [hid] at hfails
    have hread : getRequestById id w = (.ok (w.request id), w) := rfl
    dsimp only at hfails
    rw [bind_of_ok hread] at hfails
    cases hrequest : w.request id with
    | none =>
      rw [hrequest] at hfails
      exact absurd (mk.inj hfails).1 nofun
    | some request =>
      rw [hrequest] at hfails
      exact ⟨id, request, rfl, hrequest, hfails⟩

/-- Nothing has been decided: all requests have the status they had, and the request of the message is approved
only with its follow-up, in an `earlier` operation or in this one. -/
def DecidesNothing (earlier : ℕ → Prop) (id : ℕ) (before after : World σ) : Prop :=
  after.statuses = before.statuses ∧
    (after.statuses id = some .approved → earlier id ∨ FollowedUp id after.calls)

/-- The request already has the status the message assigns, and its follow-up if that is the approved one. -/
def DecidedBefore (p : Platform σ) (earlier : ℕ → Prop) (id : ℕ) (request : ApprovalRequest)
    (message : ParsedWhatsAppMessage) (w : World σ) : Prop :=
  assignedStatus p request message.intent message.feedback w.db.rest = request.status ∧
    (request.status = .approved → earlier id ∨ FollowedUp id w.calls)

/-- Only an approve message leaves its request approved. -/
theorem intent_of_assignedStatus {rest : σ} {feedback : Option String}
    (h : assignedStatus p request intent feedback rest = .approved) : intent = "approve" := by
  by_contra happrove
  rw [assignedStatus, if_neg happrove] at h
  split_ifs at h
  cases hjob : request.contentJobId with
  | none =>
    rw [hjob] at h
    cases h
  | some job =>
    simp only [hjob, revisedStatus] at h
    cases hregenerated : regenerated p request job (feedback.getD "") rest with
    | ok revised =>
      rw [hregenerated] at h
      cases h
    | error exc =>
      rw [hregenerated] at h
      cases h

def approveMessage : ParsedWhatsAppMessage := { rawText := "APPROVE 1", intent := "approve" }

/-- The platform on which publishing fails, with one delivery that approves the request 1. -/
def failingPlatform : Platform Unit :=
  { mockPlatform [approveMessage] with
    publishNow := fun _ _ rest ↦ { result := .error (httpException 400 "No target social accounts"), rest := rest } }

/-- The state in which `request` is the only request and one delivery is to be processed. -/
def oneDelivery (request : ApprovalRequest) : World Unit :=
  let db : Db Unit :=
    { requests := .single 1 request
      inbox := .single 1 { tenantId := some "tenant", dedupeKey := "raw", raw := "raw" }
      rest := () }
  { db := db, stored := db }

theorem freshJobs_failingPlatform (h : request.contentJobId ≠ some 20) :
    FreshJobs failingPlatform request.contentJobId := by
  intro tenantId job feedback channel rest revised hrevised
  obtain rfl : 20 = revised := Except.ok.inj hrevised
  exact h

end ContentGenerator.Approvals
