import ContentGenerator.Workflows.FirstResume

/-!
# The two ways to wake a paused node

A due wait is resumed by the message that `persist_waiting_node` sent when the node paused, or by the
scanner, which resolves the wait, expires the approval request bound to it and then resumes the node.
`wakes_agree_iff` says exactly when the two lead to the same node, wait, rows and approval request: the
wait is a delay, or its timeout action is not `fail` and no pending approval request is bound to it.

The message of the pause is recovered from the wait in any reachable state (`WaitTokens.origin`), and a
resume does not look at waits or messages to decide what happens to the rows (`SameRows`).
-/

namespace ContentGenerator.Workflows

open Lib Relation List Option Prod Json
open JsonObject (getTruthy get_cons get_set_of_ne get_set_self update)
open Wait (dueOutcome)

variable {decision : JsonObject} {limit token : ℕ} {outcome : String} {parseUuid : String → Option ℕ}
  {render : Json → String} {row : NodeRun} {wait : Wait}

/-! ### Approval requests -/

inductive ApprovalStatus
  | pending | revisionRequested | approved | rejected | expired
  deriving DecidableEq

def Approvals := ℕ → Option ApprovalStatus

/-- The request that `_expire_bound_approval_request` looks up; `parseUuid` is `UUID(text)`. -/
def boundApprovalRequest (render : Json → String) (parseUuid : String → Option ℕ)
    (payload : JsonObject) : Option ℕ :=
  if payload.get "kind" ≠ some (.str "approval_timeout") then none
  else
    (getTruthy payload "approval_request_id").bind fun rawId ↦
      parseUuid (rawId.text render)

def expireBoundApprovalRequest (render : Json → String) (parseUuid : String → Option ℕ)
    (payload : JsonObject) (approvals : Approvals) : Approvals :=
  match boundApprovalRequest render parseUuid payload with
  | none => approvals
  | some requestId =>
    if approvals requestId = some .pending then
      fun other ↦ if other = requestId then some .expired else approvals other
    else approvals

/-- The approval requests after `wake_due_workflow_waits` has gone through its waits. -/
def expireDueRequests (render : Json → String) (parseUuid : String → Option ℕ) (due : List Wait)
    (approvals : Approvals) : Approvals :=
  due.foldl (fun acc wait ↦
    if wait.dueOutcome = "expired" then
      expireBoundApprovalRequest render parseUuid wait.payload acc
    else acc) approvals

theorem expireBoundApprovalRequest_apply
    (payload : JsonObject) (approvals : Approvals) (requestId : ℕ) :
    expireBoundApprovalRequest render parseUuid payload approvals requestId =
      if boundApprovalRequest render parseUuid payload = some requestId ∧
          approvals requestId = some .pending then some .expired
      else approvals requestId := by
  unfold expireBoundApprovalRequest
  cases hbound : boundApprovalRequest render parseUuid payload with
  | none => simp
  | some other =>
    by_cases hsame : other = requestId
    · subst hsame
      by_cases hpending : approvals other = some .pending <;> simp [hpending]
    · by_cases hpending : approvals other = some .pending <;> simp [hpending, hsame, Ne.symm hsame]

/-- A request that is not pending is left alone, and one that an expired wait is bound to is expired. -/
theorem expireDueRequests_apply
    (due : List Wait) (approvals : Approvals) (requestId : ℕ) :
    expireDueRequests render parseUuid due approvals requestId =
      if approvals requestId = some .pending ∧ ∃ wait ∈ due, wait.dueOutcome = "expired" ∧
          boundApprovalRequest render parseUuid wait.payload = some requestId then some .expired
      else approvals requestId := by
  classical
  unfold expireDueRequests
  induction due generalizing approvals with
  | nil => simp
  | cons wait rest ih =>
    rw [foldl_cons, ih]
    by_cases hexpired : wait.dueOutcome = "expired"
    · rw [if_pos hexpired, expireBoundApprovalRequest_apply]
      by_cases hpending : approvals requestId = some .pending
      · by_cases hbound : boundApprovalRequest render parseUuid wait.payload = some requestId
        · simp [hpending, hbound, hexpired]
        · simp [hpending, hbound]
      · simp [hpending]
    · rw [if_neg hexpired]
      simp [hexpired]

/-! ### The messages of a pause -/

section Messages

variable {env : EngineEnv}

/-- The timeout action that the scanner reads from a wait. -/
def Wait.timeout (wait : Wait) : Option Json :=
  (getTruthy wait.payload "on_timeout").or (wait.timeoutAction.map str)

/-- What a pause that creates a wait that can become due sends: the elapsed outcome of a delay, or the
expired outcome with the timeout action. The scanner reads the same action unless it is `fail` or empty. -/
inductive FastWake (output : JsonObject) (wait : Wait) : String → JsonObject → Prop
  | elapsed (htype : wait.waitType = .delay) (hkind : wait.payload.get "kind" = none) :
      FastWake output wait "elapsed" []
  | expired (action : String) (htype : wait.waitType = .event)
      (haction : wait.timeout = some (.str action)) (hnonempty : action ≠ "") (hfail : action ≠ "fail") :
      FastWake output wait "expired" [("on_timeout", .str action)]
  | fails (action : String) (htype : wait.waitType = .event)
      (hfail : wait.timeout = some (.str "fail")) (haction : action ≠ "stop") :
      FastWake output wait "expired" [("on_timeout", .str action)]
  | empty (htype : wait.waitType = .event) (hempty : wait.timeout = some (.str ""))
      (houtput : output.get "on_timeout" ≠ some (.str "fail")) :
      FastWake output wait "expired" [("on_timeout", .str "fail")]

variable {output : JsonObject}

theorem get_ne_of_onTimeoutText {fallback : String}
    (hempty : onTimeoutText render output fallback = "") :
    output.get "on_timeout" ≠ some (.str "fail") := by
  intro hget
  rw [onTimeoutText, getTruthy, hget] at hempty
  exact absurd hempty (by simp [truthy, Json.text, Option.filter])

/-- A pause that creates a wait that can become due sends one message. -/
theorem persistWaitingNode_wake {id : RowId} {waitId : ℕ} {moment : Time}
    {reason : Option String}
    (h : (persistWaitingNode env.render env.parseResumeAt env.isoFormat moment id row waitId output
      reason).1 = [wait]) (hwake : wait.wakeAt.isSome) :
    ∃ earliest outcome decision,
      (persistWaitingNode env.render env.parseResumeAt env.isoFormat moment id row waitId output
          reason).2 = [{ earliest := earliest, message := .resume wait.resumeToken outcome decision }] ∧
        FastWake output wait outcome decision := by
  unfold persistWaitingNode at h ⊢
  cases htoken : row.resumeToken with
  | none =>
    rw [htoken] at h
    simp at h
  | some token =>
    rw [htoken] at h
    dsimp only at h ⊢
    by_cases hdelay : row.nodeType = "delay" ∨ reason = some "delay_until"
    · rw [if_pos hdelay] at h ⊢
      have hwait := singleton_inj.mp h
      exact ⟨_, _, _, by rw [← hwait]; rfl, .elapsed (by rw [← hwait]) (by rw [← hwait]; rfl)⟩
    rw [if_neg hdelay] at h ⊢
    by_cases hevent : row.nodeType = "wait" ∨ reason = some "event_pending"
    · rw [if_pos hevent] at h ⊢
      have hwait := singleton_inj.mp h
      obtain ⟨seconds, hseconds⟩ : ∃ seconds, timeoutSeconds output = some seconds := by
        rw [← hwait] at hwake
        simpa [isSome_iff_exists] using hwake
      have htimeout : wait.timeout = some (.str (onTimeoutText env.render output "fail")) := by
        rw [← hwait, hseconds]
        rfl
      have htype : wait.waitType = .event := by rw [← hwait]
      rw [hseconds]
      by_cases hempty : onTimeoutText env.render output "fail" = ""
      · refine ⟨_, "expired", [("on_timeout", .str "fail")], by rw [← hwait, hempty]; rfl, ?_⟩
        exact .empty htype (by rw [htimeout, hempty]) (get_ne_of_onTimeoutText hempty)
      · refine ⟨(scheduleFastWake moment token (moment + seconds * 1000000) "expired" []).earliest,
          "expired", [("on_timeout", .str (onTimeoutText env.render output "fail"))], ?_, ?_⟩
        · rw [← hwait]
          simp [scheduleFastWake, Option.filter, hempty]
        · by_cases hfail : onTimeoutText env.render output "fail" = "fail"
          · exact .fails _ htype (by rw [htimeout, hfail]) (by rw [hfail]; decide)
          · exact .expired _ htype htimeout hempty hfail
    rw [if_neg hevent] at h ⊢
    by_cases happroval : row.nodeType = "approval" ∨ reason = some "approval_pending"
    · rw [if_pos happroval] at h ⊢
      have hwait := singleton_inj.mp h
      have htype : wait.waitType = .event := by rw [← hwait]
      refine ⟨_, "expired", [("on_timeout", .str (onTimeoutText env.render output "stop"))],
        by rw [← hwait]; rfl, ?_⟩
      by_cases hempty : onTimeoutText env.render output "stop" = ""
      · have htimeout : wait.timeout = some (.str "fail") := by
          rw [← hwait, hempty]
          rfl
        exact .fails _ htype htimeout (by rw [hempty]; decide)
      · have htimeout : wait.timeout = some (.str (onTimeoutText env.render output "stop")) := by
          rw [← hwait, Wait.timeout, getTruthy]
          simp [get_cons, Option.filter, truthy, hempty]
        by_cases hfail : onTimeoutText env.render output "stop" = "fail"
        · exact .fails _ htype (by rw [htimeout, hfail]) (by rw [hfail]; decide)
        · exact .expired _ htype htimeout hempty hfail
    · rw [if_neg happroval] at h
      simp at h

/-- The scanner's outcome is that of the fast wake. -/
theorem FastWake.outcome_eq (h : FastWake output wait outcome decision) :
    outcome = wait.dueOutcome := by
  unfold dueOutcome
  cases h with
  | elapsed htype | expired action htype | fails action htype | empty htype => rw [htype]

/-- The scanner's decision on an expired wait, by the timeout action it reads. -/
theorem dueDecision_of_timeout (htype : wait.waitType = .event) {action : String}
    (htimeout : wait.timeout = some (.str action)) :
    wait.dueDecision = if action = "fail" then [("on_timeout", .str "stop")]
      else if action = "" then [] else [("on_timeout", .str action)] := by
  have hexpired : wait.dueOutcome = "expired" := by rw [dueOutcome, htype]
  unfold Wait.timeout at htimeout
  unfold Wait.dueDecision
  rw [if_neg (by simpa using hexpired)]
  dsimp only
  rw [htimeout]

/-- The timeout actions on which the two ways to wake a node do not differ. -/
def Wait.timeoutAgrees (wait : Wait) : Prop :=
  wait.dueOutcome = "expired" → wait.timeout ≠ some (.str "fail") ∧ wait.timeout ≠ some (.str "")

/-- Where the timeout action agrees, the scanner sends the decision of the fast wake. -/
theorem FastWake.decision_eq (h : FastWake output wait outcome decision)
    (hagrees : wait.timeoutAgrees) : decision = wait.dueDecision := by
  have hexpired : wait.waitType = .event → wait.dueOutcome = "expired" := by
    intro htype
    rw [dueOutcome, htype]
  cases h with
  | elapsed htype =>
    have helapsed : wait.dueOutcome = "elapsed" := by rw [dueOutcome, htype]
    rw [Wait.dueDecision, if_pos (by rw [helapsed]; decide)]
  | expired action htype haction hnonempty hfail =>
    rw [dueDecision_of_timeout htype haction, if_neg hfail, if_neg hnonempty]
  | fails action htype hfail => exact absurd hfail (hagrees (hexpired htype)).1
  | empty htype hempty => exact absurd hempty (hagrees (hexpired htype)).2

/-- The field of the output that carries the timeout action is the one of the decision. -/
theorem get_resumedOutput (row : NodeRun) (outcome : String) (decision : JsonObject)
    (continues : Bool) :
    (resumedOutput row outcome decision continues).get "on_timeout" =
      (update row.outputJson decision).get "on_timeout" := by
  unfold resumedOutput
  dsimp only
  split_ifs
  · rw [get_set_of_ne _ _ (by decide), get_set_of_ne _ _ (by decide),
      get_set_of_ne _ _ (by decide)]
  · rw [get_set_of_ne _ _ (by decide), get_set_of_ne _ _ (by decide)]

/-- Where the timeout action does not agree, the outputs differ. -/
theorem FastWake.output_ne
    (h : FastWake row.outputJson wait outcome decision) (hagrees : ¬ wait.timeoutAgrees)
    (continues continues' : Bool) :
    resumedOutput row outcome decision continues ≠
      resumedOutput row wait.dueOutcome wait.dueDecision continues' := by
  intro hsame
  have hget := congrArg (fun output ↦ output.get "on_timeout") hsame
  simp only [get_resumedOutput] at hget
  cases h with
  | elapsed htype =>
    refine hagrees fun hexpired ↦ ?_
    rw [dueOutcome, htype] at hexpired
    exact absurd hexpired (by decide)
  | expired action htype haction hnonempty hfail =>
    refine hagrees fun _ ↦ ?_
    rw [haction]
    simp [hnonempty, hfail]
  | fails action htype hfail haction =>
    rw [dueDecision_of_timeout htype hfail, if_pos rfl] at hget
    simp only [update, foldl_cons, foldl_nil, get_set_self,
      Option.some.injEq, str.injEq] at hget
    exact haction hget
  | empty htype hempty houtput =>
    rw [dueDecision_of_timeout htype hempty, if_neg (by decide), if_pos rfl] at hget
    simp only [update, foldl_cons, foldl_nil, get_set_self] at hget
    exact houtput hget.symm

end Messages

/-! ### Resumes do not look at waits -/

section Rows

variable {env : EngineEnv} {now : Time}

/-- Two states with the same run, rows and tokens. -/
structure SameRows (st st' : EngineState) : Prop where
  run : st'.run = st.run
  nodes : st'.nodes = st.nodes
  nextToken : st'.nextToken = st.nextToken

variable {st st' : EngineState}

theorem SameRows.finalize (h : SameRows st st') :
    SameRows (st.finalize env now) (st'.finalize env now) :=
  ⟨by simp only [EngineState.finalize, h.run, h.nodes], h.nodes, h.nextToken⟩

theorem SameRows.claimAndEnqueue (h : SameRows st st') (id : RowId) :
    SameRows (Workflows.claimAndEnqueue env now st id) (Workflows.claimAndEnqueue env now st' id) := by
  unfold Workflows.claimAndEnqueue
  rw [h.nodes, h.nextToken]
  split
  · exact h
  · exact ⟨h.run, rfl, rfl⟩

theorem SameRows.claims (h : SameRows st st') (ids : List RowId) :
    SameRows (ids.foldl (Workflows.claimAndEnqueue env now) st)
      (ids.foldl (Workflows.claimAndEnqueue env now) st') := by
  induction ids generalizing st st' with
  | nil => exact h
  | cons id rest ih => exact ih (h.claimAndEnqueue id)

theorem SameRows.advance (h : SameRows st st') :
    SameRows (Workflows.advance env now st) (Workflows.advance env now st') := by
  unfold Workflows.advance
  rw [h.run, h.nodes]
  split_ifs
  · exact h
  · exact h.finalize
  · refine SameRows.finalize ?_
    unfold claimPass
    dsimp only
    rw [h.nodes]
    have hpromoted : ∀ t : NodeTable, SameRows { st with nodes := t } { st' with nodes := t } :=
      fun t ↦ ⟨h.run, rfl, h.nextToken⟩
    exact (hpromoted _).claims _

theorem SameRows.decideRow (h : SameRows st st') (id : RowId) (row : NodeRun) (outcome : String)
    (output : JsonObject) (succeeds : Bool) :
    SameRows (Workflows.decideRow env now id row outcome output succeeds st)
      (Workflows.decideRow env now id row outcome output succeeds st') := by
  unfold Workflows.decideRow
  rw [h.nodes, h.run]
  cases succeeds with
  | true | false => exact ⟨rfl, rfl, h.nextToken⟩

theorem SameRows.completeResume (h : SameRows st st') (id : RowId) (output : JsonObject)
    (advances : Bool) (waits waits' : List Wait) :
    SameRows (Workflows.completeResume env now id output advances waits st)
      (Workflows.completeResume env now id output advances waits' st') := by
  unfold Workflows.completeResume
  dsimp only
  rw [h.run]
  have hfinal : ∀ run : Run,
      SameRows (EngineState.finalize env now { st with waits := waits, run := run })
        (EngineState.finalize env now { st' with waits := waits', run := run }) := by
    intro run
    exact SameRows.finalize ⟨rfl, h.nodes, h.nextToken⟩
  rw [(hfinal _).run]
  split_ifs
  · exact (hfinal _).advance
  · exact hfinal _

theorem SameRows.resumedState (h : SameRows st st') (id : RowId) (row : NodeRun) (outcome : String)
    (decision : JsonObject) (advances : Bool) (waits waits' : List Wait) :
    SameRows (Workflows.resumedState env now id row outcome decision advances waits st)
      (Workflows.resumedState env now id row outcome decision advances waits' st') :=
  (h.decideRow id row outcome _ _).completeResume id _ advances waits waits'

/-- The call on a waiting row with an outcome the engine sends itself. -/
theorem resumeWaitingNode_eq_resumedState
    (houtcome : outcome ∈ ["elapsed", "expired"]) {advances : Bool}
    {id : RowId} (hrow : st.nodes.find id = some row)
    (hentry : st.nodes.byResumeToken token = some (id, row)) (hwaiting : row.status = .waiting)
    {waits : List Wait} (hmarked : markResumed now token outcome decision row st.waits = .ok waits) :
    resumeWaitingNode env now token outcome decision advances st =
      .ok (resumedState env now id row outcome decision advances waits st) := by
  have hnormal : pyLower (pyStrip outcome) = outcome ∧
      outcome ∈ successOutcomes ++ failOutcomes := by
    rcases mem_cons.mp houtcome with rfl | hmem
    · decide +kernel
    · rw [mem_singleton.mp hmem]
      decide +kernel
  rw [resumeWaitingNode_of_waiting (hnormal.1.symm ▸ hnormal.2) hentry hwaiting, hnormal.1,
    resumeRow_eq hrow, hmarked]
  rfl

end Rows

/-! ### The wait -/

section Wait

variable {env : EngineEnv} {now : Time} {st : EngineState}

def waitState (waitId : ℕ) (waits : List Wait) : Option (WaitStatus × Option String) :=
  (waits.find? fun wait ↦ wait.id = waitId).map fun wait ↦ (wait.status, wait.resolvedOutcome)

variable {waits : List Wait}

theorem waitState_of_mem (hids : (waits.map Wait.id).Nodup)
    (hmem : wait ∈ waits) : waitState wait.id waits = some (wait.status, wait.resolvedOutcome) := by
  unfold waitState
  cases hfind : waits.find? fun other ↦ other.id = wait.id with
  | none =>
    have hnone := find?_eq_none.mp hfind wait hmem
    simp at hnone
  | some other =>
    have hid : other.id = wait.id := by simpa using find?_some hfind
    rw [inj_on_of_nodup_map hids (mem_of_find?_eq_some hfind) hmem hid]
    rfl

theorem WaitTokens.pendingUnder_eq (h : WaitTokens env st)
    (hmem : wait ∈ st.waits) (hpending : wait.status = .pending)
    (hrow : st.nodes.find wait.nodeRun = some row) (htype : row.nodeType ∈ waitTypes)
    (htoken : row.resumeToken = some wait.resumeToken) :
    pendingUnder wait.resumeToken st.waits = [wait] := by
  have hsingle := h.single wait.nodeRun row wait.resumeToken hrow htype htoken
  have hfound : wait ∈ pendingUnder wait.resumeToken st.waits :=
    mem_pendingUnder.mpr ⟨hmem, rfl, hpending⟩
  cases hlist : pendingUnder wait.resumeToken st.waits with
  | nil =>
    rw [hlist] at hfound
    simp at hfound
  | cons first rest =>
    rw [hlist] at hfound hsingle
    obtain rfl : rest = [] := length_eq_zero_iff.mp (by simpa using hsingle)
    rw [mem_singleton.mp hfound]

theorem markResumed_of_pending (now : Time) (outcome : String) (decision : JsonObject)
    (htype : row.nodeType ∈ waitTypes)
    (hone : pendingUnder token waits = [wait]) :
    ∃ payloadUpdate, markResumed now token outcome decision row waits =
      .ok (waits.map fun other ↦
        if other.id = wait.id then other.resolve now outcome payloadUpdate else other) := by
  unfold markResumed
  unfold waitTypes at htype
  rw [if_pos htype]
  unfold markWaitResolvedByResumeToken
  unfold pendingUnder at hone
  dsimp only
  rw [hone]
  exact ⟨_, rfl⟩

theorem markResumed_of_nil
    (hnone : pendingUnder token waits = []) :
    markResumed now token outcome decision row waits = .ok waits := by
  unfold markResumed
  by_cases htype : row.nodeType ∈ ["delay", "wait", "approval"]
  · rw [if_pos htype]
    unfold markWaitResolvedByResumeToken
    unfold pendingUnder at hnone
    dsimp only
    rw [hnone]
  · rw [if_neg htype]

theorem mem_of_mem_dueWaits (h : wait ∈ dueWaits now limit waits) :
    wait ∈ waits ∧ wait.status = .pending ∧ wait.wakeAt.isSome := by
  have hsorted := mem_of_mem_take h
  rw [(perm_insertionSort _ _).mem_iff, mem_filter, decide_eq_true_eq] at hsorted
  obtain ⟨hmem, hpending, hwake⟩ := hsorted
  refine ⟨hmem, hpending, ?_⟩
  cases hat : wait.wakeAt with
  | none =>
    rw [hat] at hwake
    simp at hwake
  | some due => rfl

/-- The wait after the scan. -/
theorem resolve_mem_wakeDueWaits (h : wait ∈ dueWaits now limit st.waits) :
    wait.resolve now wait.dueOutcome [] ∈ (wakeDueWaits now limit st).waits := by
  refine List.mem_map.mpr ⟨wait, (mem_of_mem_dueWaits h).1, if_pos ?_⟩
  exact List.mem_map_of_mem (f := Wait.id) h

theorem WaitTokens.pendingUnder_scanned (h : WaitTokens env st)
    (hdue : wait ∈ dueWaits now limit st.waits)
    (hrow : st.nodes.find wait.nodeRun = some row) (htype : row.nodeType ∈ waitTypes)
    (htoken : row.resumeToken = some wait.resumeToken) :
    pendingUnder wait.resumeToken (wakeDueWaits now limit st).waits = [] := by
  obtain ⟨hmem, hpending, -⟩ := mem_of_mem_dueWaits hdue
  have hsettles : SettlesWaits st.waits (wakeDueWaits now limit st).waits :=
    wakeDueWaits_settles limit st
  have hids : ((wakeDueWaits now limit st).waits.map Wait.id).Nodup := by
    rw [hsettles.map_id]
    exact h.nodup_ids
  refine eq_nil_iff_forall_not_mem.mpr fun other hother ↦ ?_
  obtain ⟨hotherMem, hotherToken, hotherPending⟩ := mem_pendingUnder.mp hother
  have hold : other ∈ pendingUnder wait.resumeToken st.waits :=
    mem_pendingUnder.mpr ⟨hsettles.mem_of_pending hotherMem hotherPending, hotherToken, hotherPending⟩
  rw [h.pendingUnder_eq hmem hpending hrow htype htoken, mem_singleton] at hold
  rw [hold] at hotherMem
  have hsame := inj_on_of_nodup_map hids hotherMem (resolve_mem_wakeDueWaits hdue) rfl
  rw [hsame] at hpending
  exact absurd hpending (by simp [Wait.resolve])

end Wait

/-! ### The comparison -/

section Comparison

variable {env : EngineEnv}

def FastWakeOf (env : EngineEnv) (row : NodeRun) (wait : Wait) (message : Message) : Prop :=
  ∃ moment earliest, persistWaitingNode env.render env.parseResumeAt env.isoFormat moment wait.nodeRun
    row wait.id row.outputJson row.waitingReason = ([wait], [{ earliest := earliest, message := message }])

/-- What two ways to wake the node of a wait are compared by: the status and output of the node, the
status of every row, the status and outcome of the wait, and the status of the bound request. -/
structure WokenAlike (wait : Wait) (request : Option ℕ) (fast scanned : EngineState)
    (approvals approvals' : Approvals) : Prop where
  node : (fast.nodes.find wait.nodeRun).map (fun row ↦ (row.status, row.outputJson)) =
    (scanned.nodes.find wait.nodeRun).map fun row ↦ (row.status, row.outputJson)
  rows : ∀ id, (fast.nodes.find id).map NodeRun.status = (scanned.nodes.find id).map NodeRun.status
  wait : waitState wait.id fast.waits = waitState wait.id scanned.waits
  request : ∀ requestId, request = some requestId → approvals requestId = approvals' requestId

/-- The resume by the given message and the resume by the scanner both return and are alike. The scan is
made at `scan` with room for `limit` waits, the two resumes at `now`. -/
def WakesAgree (env : EngineEnv) (parseUuid : String → Option ℕ) (scan now : Time) (limit : ℕ)
    (advances : Bool) (wait : Wait) (token : ℕ) (outcome : String) (decision : JsonObject)
    (approvals : Approvals) (st : EngineState) : Prop :=
  ∃ fast scanned,
    resumeWaitingNode env now token outcome decision advances st = .ok fast ∧
    resumeWaitingNode env now wait.resumeToken wait.dueOutcome wait.dueDecision advances
        (wakeDueWaits scan limit st) = .ok scanned ∧
    WokenAlike wait (boundApprovalRequest env.render parseUuid wait.payload) fast scanned approvals
      (expireDueRequests env.render parseUuid (dueWaits scan limit st.waits) approvals)

def NoPendingRequest (env : EngineEnv) (parseUuid : String → Option ℕ) (wait : Wait)
    (approvals : Approvals) : Prop :=
  ∀ requestId, boundApprovalRequest env.render parseUuid wait.payload = some requestId →
    approvals requestId ≠ some .pending

/-- The bound request is the same after the scan exactly when it was not pending. -/
theorem FastWake.request_iff {output : JsonObject}
    (h : FastWake output wait outcome decision)
    {due : List Wait} (hdue : wait ∈ due) (approvals : Approvals) :
    (∀ requestId, boundApprovalRequest env.render parseUuid wait.payload = some requestId →
        approvals requestId = expireDueRequests env.render parseUuid due approvals requestId) ↔
      NoPendingRequest env parseUuid wait approvals := by
  have hexpired : ∀ requestId, boundApprovalRequest env.render parseUuid wait.payload =
      some requestId → wait.dueOutcome = "expired" := by
    intro requestId hbound
    cases h with
    | elapsed htype hkind =>
      rw [boundApprovalRequest, if_pos (by rw [hkind]; simp)] at hbound
      simp at hbound
    | expired action htype | fails action htype | empty htype => rw [dueOutcome, htype]
  unfold NoPendingRequest
  refine forall₂_congr fun requestId hbound ↦ ?_
  rw [expireDueRequests_apply]
  by_cases hpending : approvals requestId = some .pending
  · rw [if_pos ⟨hpending, wait, hdue, hexpired requestId hbound, hbound⟩, hpending]
    simp
  · rw [if_neg fun hboth ↦ hpending hboth.1]
    simp [hpending]

section Calls

variable {st : EngineState} {scan : Time}

theorem WaitTokens.fastCall (h : WaitTokens env st) (hrow : st.nodes.find wait.nodeRun = some row)
    (hwaiting : row.status = .waiting) (htype : row.nodeType ∈ waitTypes)
    (htoken : row.resumeToken = some wait.resumeToken) (hdue : wait ∈ dueWaits scan limit st.waits)
    (now : Time) (houtcome : outcome ∈ ["elapsed", "expired"])
    (decision : JsonObject) (advances : Bool) :
    ∃ waits, resumeWaitingNode env now wait.resumeToken outcome decision advances st =
        .ok (resumedState env now wait.nodeRun row outcome decision advances waits st) ∧
      waitState wait.id waits = some (.resolved, some outcome) := by
  obtain ⟨hmem, hpending, -⟩ := mem_of_mem_dueWaits hdue
  obtain ⟨payloadUpdate, hmarked⟩ := markResumed_of_pending now outcome decision htype
    (h.pendingUnder_eq hmem hpending hrow htype htoken)
  refine ⟨_, resumeWaitingNode_eq_resumedState houtcome hrow (h.byResumeToken_eq hrow htoken) hwaiting
    hmarked, ?_⟩
  have hids : ((st.waits.map fun other ↦ if other.id = wait.id then
      other.resolve now outcome payloadUpdate else other).map Wait.id).Nodup := by
    rw [(markResumed_spec hmarked).1.map_id]
    exact h.nodup_ids
  have hresolved : wait.resolve now outcome payloadUpdate ∈ st.waits.map fun other ↦
      if other.id = wait.id then other.resolve now outcome payloadUpdate else other :=
    List.mem_map.mpr ⟨wait, hmem, if_pos rfl⟩
  exact waitState_of_mem hids hresolved

theorem WaitTokens.scannedCall (h : WaitTokens env st) (hrow : st.nodes.find wait.nodeRun = some row)
    (hwaiting : row.status = .waiting) (htype : row.nodeType ∈ waitTypes)
    (htoken : row.resumeToken = some wait.resumeToken) (hdue : wait ∈ dueWaits scan limit st.waits)
    (now : Time) (advances : Bool) :
    ∃ waits, resumeWaitingNode env now wait.resumeToken wait.dueOutcome wait.dueDecision advances
          (wakeDueWaits scan limit st) =
        .ok (resumedState env now wait.nodeRun row wait.dueOutcome wait.dueDecision advances waits
          (wakeDueWaits scan limit st)) ∧
      waitState wait.id waits = some (.resolved, some wait.dueOutcome) := by
  have houtcome : wait.dueOutcome ∈ ["elapsed", "expired"] := by
    unfold dueOutcome
    split <;> decide
  have hsettles : SettlesWaits st.waits (wakeDueWaits scan limit st).waits :=
    wakeDueWaits_settles limit st
  have hmarked : markResumed now wait.resumeToken wait.dueOutcome wait.dueDecision row
      (wakeDueWaits scan limit st).waits = .ok (wakeDueWaits scan limit st).waits :=
    markResumed_of_nil (h.pendingUnder_scanned hdue hrow htype htoken)
  have hrow' : (wakeDueWaits scan limit st).nodes.find wait.nodeRun = some row := hrow
  have hentry : (wakeDueWaits scan limit st).nodes.byResumeToken wait.resumeToken =
      some (wait.nodeRun, row) := h.byResumeToken_eq hrow htoken
  refine ⟨(wakeDueWaits scan limit st).waits,
    resumeWaitingNode_eq_resumedState houtcome hrow' hentry hwaiting hmarked, ?_⟩
  have hids : ((wakeDueWaits scan limit st).waits.map Wait.id).Nodup := by
    rw [hsettles.map_id]
    exact h.nodup_ids
  exact waitState_of_mem hids (resolve_mem_wakeDueWaits hdue)

end Calls

/-- The fast wake and the scanner agree on a due wait of a waiting node exactly when its timeout action
is neither `fail` nor empty, unless it is a delay, and no pending approval request is bound to it. -/
theorem wakes_agree_iff {allowed : Time → Op → EngineState → Prop} {st : EngineState}
    (hst : Reachable env allowed st) {row : NodeRun} {wait : Wait}
    (hrow : st.nodes.find wait.nodeRun = some row) (hwaiting : row.status = .waiting)
    (htype : row.nodeType ∈ waitTypes) (htoken : row.resumeToken = some wait.resumeToken)
    {scan : Time} {limit : ℕ} (hdue : wait ∈ dueWaits scan limit st.waits) (now : Time)
    (advances : Bool) (parseUuid : String → Option ℕ) (approvals : Approvals) :
    (∃ token outcome decision, FastWakeOf env row wait (.resume token outcome decision)) ∧
      ∀ token outcome decision, FastWakeOf env row wait (.resume token outcome decision) →
        (WakesAgree env parseUuid scan now limit advances wait token outcome decision approvals st ↔
          wait.timeoutAgrees ∧ NoPendingRequest env parseUuid wait approvals) := by
  have h := hst.waitTokens
  obtain ⟨hmem, hpending, hwake⟩ := mem_of_mem_dueWaits hdue
  refine ⟨?_, fun token outcome decision hfastWake ↦ ?_⟩
  · obtain ⟨moment, hpersist⟩ := h.origin wait hmem hpending row hrow htoken htype
    obtain ⟨earliest, outcome, decision, hsent, -⟩ := persistWaitingNode_wake hpersist hwake
    exact ⟨_, outcome, decision, moment, earliest, Prod.ext hpersist hsent⟩
  obtain ⟨moment, earliest, hpersist⟩ := hfastWake
  obtain ⟨earliest', outcome', decision', hsent, hfast⟩ :=
    persistWaitingNode_wake (congrArg fst hpersist) hwake
  have hmessage := singleton_inj.mp ((congrArg snd hpersist).symm.trans hsent)
  obtain ⟨rfl, rfl, rfl⟩ := Message.resume.inj (congrArg Envelope.message hmessage)
  have houtcome : outcome ∈ ["elapsed", "expired"] := by
    cases hfast <;> simp
  obtain ⟨waits, hcall, hwait⟩ := h.fastCall hrow hwaiting htype htoken hdue now houtcome decision
    advances
  obtain ⟨waits', hcall', hwait'⟩ := h.scannedCall hrow hwaiting htype htoken hdue now advances
  have hrow' : (wakeDueWaits scan limit st).nodes.find wait.nodeRun = some row := hrow
  constructor
  · rintro ⟨fast, scanned, hok, hok', halike⟩
    obtain rfl := Except.ok.inj (hcall.symm.trans hok)
    obtain rfl := Except.ok.inj (hcall'.symm.trans hok')
    refine ⟨by_contra fun hdiffers ↦ ?_, (hfast.request_iff hdue approvals).mp halike.request⟩
    have houtput := congrArg (Option.map snd) halike.node
    rw [Option.map_map, Option.map_map] at houtput
    have hsame := ((resumedState_spec env now outcome decision advances waits hrow).2.symm.trans
      houtput).trans (resumedState_spec env now wait.dueOutcome wait.dueDecision advances waits'
        hrow').2
    exact hfast.output_ne hdiffers _ _ (Option.some.inj hsame)
  · rintro ⟨hagrees, hrequest⟩
    refine ⟨_, _, hcall, hcall', ?_⟩
    have hsame : SameRows st (wakeDueWaits scan limit st) := ⟨rfl, rfl, rfl⟩
    have hdecision := hfast.decision_eq hagrees
    have houtcome' := hfast.outcome_eq
    rw [← hdecision, ← houtcome']
    have hrows : SameRows
        (resumedState env now wait.nodeRun row outcome decision advances waits st)
        (resumedState env now wait.nodeRun row outcome decision advances waits'
          (wakeDueWaits scan limit st)) := hsame.resumedState _ _ _ _ _ _ _
    refine ⟨by rw [hrows.nodes], fun id ↦ by rw [hrows.nodes], ?_,
      (hfast.request_iff hdue approvals).mpr hrequest⟩
    rw [(resumedState_spec env now outcome decision advances waits hrow).1, hwait,
      (resumedState_spec env now outcome decision advances waits' hrow').1, hwait', houtcome']

end Comparison

/-- The fast wake and the scanner agree on the paused delay. -/
theorem pausedDelay_wakes_agree :
    ∃ row wait token outcome decision,
      wait ∈ dueWaits 2000000 50 pausedDelay.waits ∧ pausedDelay.nodes.find wait.nodeRun = some row ∧
      FastWakeOf (catalogueEnv delayGraph repairedGlobals) row wait (.resume token outcome decision) ∧
      WakesAgree (catalogueEnv delayGraph repairedGlobals) (fun _ ↦ none) 2000000 2000001 50 true wait
        token outcome decision (fun _ ↦ none) pausedDelay := by
  have hdue : (dueWaits 2000000 50 pausedDelay.waits).map (fun wait ↦
      (wait.nodeRun, wait.resumeToken, wait.dueOutcome)) = [(⟨"d", ""⟩, 3, "elapsed")] := by
    decide +kernel
  have hpaused : (pausedDelay.nodes.find ⟨"d", ""⟩).map (fun row ↦
      (row.status, row.nodeType, row.resumeToken)) = some (.waiting, "delay", some 3) := by
    decide +kernel
  have hmem : ((⟨"d", ""⟩, 3, "elapsed") : RowId × ℕ × String) ∈
      (dueWaits 2000000 50 pausedDelay.waits).map fun wait ↦
        (wait.nodeRun, wait.resumeToken, wait.dueOutcome) := by
    rw [hdue]
    exact mem_singleton.mpr rfl
  obtain ⟨wait, hwait, hcolumns⟩ := List.mem_map.mp hmem
  obtain ⟨row, hrow, hrowColumns⟩ := map_eq_some_iff.mp hpaused
  simp only [mk.injEq] at hcolumns hrowColumns
  obtain ⟨hnode, htoken, houtcome⟩ := hcolumns
  obtain ⟨hwaiting, htype, hrowToken⟩ := hrowColumns
  rw [← hnode] at hrow
  have hst : Reachable (catalogueEnv delayGraph repairedGlobals) anyOp pausedDelay :=
    reachable_play 0 .inline [] [] (permits_anyOp _ _ _)
  obtain ⟨⟨token, outcome, decision, hfast⟩, hiff⟩ := wakes_agree_iff hst hrow hwaiting
    (by rw [htype]; decide) (by rw [hrowToken, htoken]) hwait 2000001 true (fun _ ↦ none)
    fun _ ↦ none
  refine ⟨row, wait, token, outcome, decision, hwait, hrow, hfast, (hiff _ _ _ hfast).mpr ⟨?_, ?_⟩⟩
  · intro hexpired
    rw [houtcome] at hexpired
    exact absurd hexpired (by decide)
  · intro requestId _
    simp

/-! ### A request that stays pending -/

def approvalGraph : WorkflowGraph where
  nodes := [{ id := "t", type := "manual_trigger" }, { id := "a", type := "approval" }]
  edges := [{ source := "t", target := "a" }]

/-- The run in which the approval waits for the request with id 1. -/
def pausedApproval : EngineState :=
  (catalogueEnv approvalGraph repairedGlobals).play
    [(1, execSucceeds "t" "" 0 [("payload", .obj []), ("trigger_type", .str "manual_trigger")]),
      (2, execReturns "a" "" 2
        { status := .waiting
          output := [("approval_request_id", .str "00000000-0000-0000-0000-000000000001"),
            ("status", .str "pending"), ("channels", .arr [])]
          waitingReason := some "approval_pending" })]
    (startRun (catalogueEnv approvalGraph repairedGlobals) 0 .inline [] [])

/-- `UUID(text)` on the id of the request. -/
def parseRequestId (text : String) : Option ℕ :=
  if text = "00000000-0000-0000-0000-000000000001" then some 1 else none

def onePendingRequest : Approvals := fun requestId ↦ if requestId = 1 then some .pending else none

/-- When the day is over, the scanner expires the bound request and the fast wake leaves it pending. -/
theorem fastWake_leaves_request_pending :
    graphValid catalogue (fun _ ↦ []) approvalGraph {} ∧
      Reachable (catalogueEnv approvalGraph repairedGlobals) anyOp pausedApproval ∧
      ∃ row wait token outcome decision, pausedApproval.nodes.find wait.nodeRun = some row ∧
        row.status = .waiting ∧ row.nodeType = "approval" ∧ row.resumeToken = some wait.resumeToken ∧
        wait ∈ dueWaits 86400000002 50 pausedApproval.waits ∧
        FastWakeOf (catalogueEnv approvalGraph repairedGlobals) row wait
          (.resume token outcome decision) ∧
        ∀ now advances, ¬ WakesAgree (catalogueEnv approvalGraph repairedGlobals) parseRequestId
          86400000002 now 50 advances wait token outcome decision onePendingRequest
          pausedApproval := by
  have hdue : (dueWaits 86400000002 50 pausedApproval.waits).map (fun wait ↦
      (wait.nodeRun, wait.resumeToken, boundApprovalRequest (fun _ ↦ "") parseRequestId wait.payload)) =
        [(⟨"a", ""⟩, 3, some 1)] := by
    decide +kernel
  have hexpired : expireDueRequests (fun _ ↦ "") parseRequestId
      (dueWaits 86400000002 50 pausedApproval.waits) onePendingRequest 1 = some .expired := by
    decide +kernel
  have hpaused : (pausedApproval.nodes.find ⟨"a", ""⟩).map (fun row ↦
      (row.status, row.nodeType, row.resumeToken)) = some (.waiting, "approval", some 3) := by
    decide +kernel
  have hmem : ((⟨"a", ""⟩, 3, some 1) : RowId × ℕ × Option ℕ) ∈
      (dueWaits 86400000002 50 pausedApproval.waits).map fun wait ↦ (wait.nodeRun, wait.resumeToken,
        boundApprovalRequest (fun _ ↦ "") parseRequestId wait.payload) := by
    rw [hdue]
    exact mem_singleton.mpr rfl
  obtain ⟨wait, hwait, hcolumns⟩ := List.mem_map.mp hmem
  obtain ⟨row, hrow, hrowColumns⟩ := map_eq_some_iff.mp hpaused
  simp only [mk.injEq] at hcolumns hrowColumns
  obtain ⟨hnode, htoken, hbound⟩ := hcolumns
  obtain ⟨hwaiting, htype, hrowToken⟩ := hrowColumns
  rw [← hnode] at hrow
  rw [← htoken] at hrowToken
  have hst : Reachable (catalogueEnv approvalGraph repairedGlobals) anyOp pausedApproval :=
    reachable_play 0 .inline [] [] (permits_anyOp _ _ _)
  obtain ⟨hwaitMem, hpending, hwake⟩ := mem_of_mem_dueWaits hwait
  obtain ⟨moment, hpersist⟩ := hst.waitTokens.origin wait hwaitMem hpending row hrow hrowToken
    (by rw [htype]; decide)
  obtain ⟨earliest, outcome, decision, hsent, -⟩ := persistWaitingNode_wake hpersist hwake
  refine ⟨by decide +kernel, hst, row, wait, _, outcome, decision, hrow, hwaiting, htype, hrowToken,
    hwait, ⟨moment, earliest, Prod.ext hpersist hsent⟩, ?_⟩
  rintro now advances ⟨fast, scanned, -, -, halike⟩
  have hrequest := halike.request 1 hbound
  exact absurd (hrequest.trans hexpired) (by decide)

end ContentGenerator.Workflows
