import ContentGenerator.Workflows.Engine
import ContentGenerator.Workflows.RowSteps

/-!
# Operations as steps on the rows

Every operation of the engine is a run of quiet steps on the rows, interrupted at most once: when a
row finishes, it is handed on to the successors of its node. `Op.handOff` says which operations do
so, with the table at that moment, and `HandOff.apply` is the function the source calls there.
`Op.apply_steps` is the decomposition, for every operation but `retry_from_node`, whose resets are
described by `retryFromNode_steps`.
-/

namespace ContentGenerator.Workflows

open Lib Relation List Option KeyedTable NodeStatus NodeTable ReflTransGen
open NodeRun (abort recordTaskExecution resetFailedToReady)

variable {args : ExecuteArgs} {graphNode : GraphNode} {impl : NodeImpl} {row row' : NodeRun}
  {settled : Executed × Option Finish} {st : EngineState} {env : EngineEnv} {now : Time}

/-! ### Hand-offs -/

/-- A finished row at the moment it is handed on: with the type of its node when it was executed, and
with none when it was resumed. -/
structure HandOff where
  finish : Finish
  nodeType : Option String
  nodes : NodeTable

/-- What the source does with a finished row: an executed row is propagated, a resumed row unlocks
the successors of its node. -/
def HandOff.apply (env : EngineEnv) (now : Time) (h : HandOff) : NodeTable :=
  match h.nodeType with
  | some nodeType => propagate env now nodeType h.finish h.nodes
  | none =>
    (unlockAfterNodeSuccess env.graph now h.nodes h.finish.id.nodeId h.finish.output).nodes

def settledHandOff (nodeType : String) : Except PyException (Executed × Option Finish) →
    Option HandOff
  | .ok (done, some finish) =>
    some { finish := finish, nodeType := some nodeType, nodes := done.state.nodes }
  | _ => none

/-- The hand-off of a decision on a waiting row. -/
def resumeHandOff (env : EngineEnv) (now : Time) (resumeToken : ℕ) (outcome : String)
    (decision : JsonObject) (id : RowId) (row : NodeRun) (st : EngineState) : Option HandOff :=
  let continues := continuesAfterTimeout env.render outcome decision
  let output := resumedOutput row outcome decision continues
  match markResumed now resumeToken outcome decision row st.waits with
  | .error _ => none
  | .ok _ =>
    if outcome ∈ successOutcomes ∨ continues then
      some
        { finish := { id := id, status := .succeeded, output := output }
          nodeType := none
          nodes := st.nodes.put id (row.resolve now .succeeded output none) }
    else none

/-- The hand-off of a call of `resume_waiting_node`. -/
def tokenHandOff (env : EngineEnv) (now : Time) (token : ℕ) (rawOutcome : String)
    (decision : JsonObject) (st : EngineState) : Option HandOff :=
  let outcome := pyLower (pyStrip rawOutcome)
  match st.nodes.byResumeToken token with
  | none => none
  | some entry =>
    if outcome ∈ successOutcomes ++ failOutcomes ∧ entry.2.status = .waiting then
      resumeHandOff env now token outcome decision entry.1 entry.2 st
    else none

/-- The row an operation finishes, at the moment it is handed on. -/
def Op.handOff (env : EngineEnv) (now : Time) : Op → EngineState → Option HandOff
  | .execute args token workerTaskId _, st =>
    if st.run.status.isTerminal then none
    else
      match (st.nodes.find args.row).bind
          (beginNodeExecution env.claimLease now token workerTaskId args.taskExecutionId) with
      | none => none
      | some begun =>
        if shouldAbortNode begun st.run then none
        else
          match env.graph.node? args.row.nodeId with
          | none => none
          | some graphNode =>
            settledHandOff graphNode.type
              (settleReadyNode env now args graphNode
                { state := { st with nodes := st.nodes.put args.row begun }
                  nodeOutputs := asDict (st.run.contextSnapshot.get "node_outputs") }
                (asDict (st.run.contextSnapshot.get "initial_inputs")))
  | .resume token rawOutcome decision _, st => tokenHandOff env now token rawOutcome decision st
  | .resumeRun eventKey decision _, st =>
    match resolveWaitByEventKey now eventKey decision st.waits with
    | .ok (some token, waits) =>
      tokenHandOff env now token "received" (eventDecision decision) { st with waits := waits }
    | _ => none
  | _, _ => none

/-! ### Advance -/

variable {t : NodeTable} {nodeId : String} {lease : Time} {token : ℕ} {id : RowId} {attempt : NodeRun}
  {before : Executed} {run : Run} {worker : Option String} {draw : ℚ} {st' : EngineState}
  {handOff : Option HandOff} {decision : JsonObject} {advances : Bool} {op : Op} {h : HandOff}

theorem isReady_of_promotes {g : WorkflowGraph} {t' : NodeTable} (hstep : Promotes g t t')
    (h : isReady g t nodeId) : isReady g t' nodeId := by
  obtain ⟨other, id, row, hget, hpending, -⟩ := hstep
  have hrow := (get_eq_some hget).1
  refine isReady_mapValues ?_ ?_ h
  · intro key current hcurrent hsuccess
    split_ifs with hkey
    · rw [hkey, hrow] at hcurrent
      cases hcurrent
      rw [hpending] at hsuccess
      exact absurd hsuccess (by decide)
    · rfl
  · intro key current _ hskippable
    split_ifs
    · rfl
    · exact hskippable

/-- The promotion of `advance` is a run of promotions: a node that was listed stays ready. -/
theorem promoteReady_steps {g : WorkflowGraph} {r : NodeTable → NodeTable → Prop}
    (hr : ∀ t t', Promotes g t t' → r t t') (t : NodeTable) :
    ReflTransGen r t (promoteReady g t) := by
  refine (foldl_invariant (P := fun nodes ↦ ReflTransGen r t nodes ∧
    ∀ nodeId ∈ readyNodeIds g t, isReady g nodes nodeId) ?_ ⟨.refl, ?_⟩).1
  · rintro nodes nodeId hmem ⟨hrun, hready⟩
    unfold promotePending
    split
    · exact ⟨hrun, hready⟩
    · rename_i current hget
      split_ifs with hpending
      · have hstep : Promotes g nodes (nodes.setStatus current.1 .ready) :=
          .intro nodeId current.1 current.2 hget hpending (hready nodeId hmem)
        exact ⟨hrun.tail (hr _ _ hstep),
          fun other hother ↦ isReady_of_promotes hstep (hready other hother)⟩
      · exact ⟨hrun, hready⟩
  · intro nodeId hmem
    simp only [readyNodeIds, mem_filter, decide_eq_true_eq] at hmem
    exact hmem.2.2

theorem claimReadyNode_continues {runId : String}
    (h : claimReadyNode runId lease now token id row = some row') :
    row.Continues row' := by
  unfold claimReadyNode at h
  rw [ite_none_right_eq_some] at h
  obtain ⟨hready, hrow⟩ := h
  cases hrow
  refine NodeRun.Proceeds.continues (.of_active rfl ?_ ?_ (by simp) (.inr (.inl rfl)))
    (show ¬ queued.isSuccess by decide)
  · rw [hready.1]
    decide
  · rw [hready.1]
    decide

theorem claimAndEnqueue_steps (st : EngineState) (id : RowId) :
    ReflTransGen (QuietStep env.graph) st.nodes (claimAndEnqueue env now st id).nodes := by
  unfold claimAndEnqueue
  split
  · exact .refl
  · rename_i claimed hclaimed
    obtain ⟨row, hrow, hclaim⟩ := bind_eq_some_iff.mp hclaimed
    exact .single (quietStep_put hrow (claimReadyNode_continues hclaim))

theorem claimPass_steps (st : EngineState) :
    ReflTransGen (QuietStep env.graph) st.nodes (claimPass env now st).nodes := by
  unfold claimPass
  refine .trans ?_ (foldl_reflTransGen EngineState.nodes _
    fun acc id _ ↦ claimAndEnqueue_steps acc id)
  dsimp only
  split_ifs
  · exact promoteReady_steps (fun _ _ h ↦ .promote h) st.nodes
  · exact .refl

/-- `advance` promotes and claims. -/
theorem advance_steps (st : EngineState) :
    ReflTransGen (QuietStep env.graph) st.nodes (advance env now st).nodes := by
  unfold advance
  split_ifs
  · exact .refl
  · exact .refl
  · exact claimPass_steps st

theorem contextSnapshot_finalize (st : EngineState) :
    (st.finalize env now).run.contextSnapshot = st.run.contextSnapshot := by
  unfold EngineState.finalize finalizeRunStatus
  dsimp only
  split_ifs <;> rfl

theorem run_claimAndEnqueue (st : EngineState) (id : RowId) :
    (claimAndEnqueue env now st id).run = st.run := by
  unfold claimAndEnqueue
  split <;> rfl

theorem contextSnapshot_advance (st : EngineState) :
    (advance env now st).run.contextSnapshot = st.run.contextSnapshot := by
  have hclaims : (claimPass env now st).run = st.run := by
    unfold claimPass
    refine foldl_invariant (P := fun acc : EngineState ↦ acc.run = st.run) ?_ rfl
    intro acc id _ hrun
    rw [run_claimAndEnqueue, hrun]
  unfold advance
  split_ifs
  · rfl
  · exact contextSnapshot_finalize st
  · rw [contextSnapshot_finalize, hclaims]

/-! ### Executions -/

def AttemptFailed (impl : NodeImpl) (row' : NodeRun) : Prop :=
  row'.status = .failed ∨
    (row'.status = .ready ∧ row'.nextAttemptAt.isSome ∧ ∃ errorClass,
      row'.errorClass = some errorClass ∧ shouldRetry errorClass row'.attempt impl.retryPolicy)

/-- The columns of a row that an attempt does not write. -/
structure NodeRun.KeepsClaim (row row' : NodeRun) : Prop where
  nodeVersion : row'.nodeVersion = row.nodeVersion
  claimToken : row'.claimToken = row.claimToken

theorem NodeRun.KeepsClaim.trans {row'' : NodeRun} (h : row.KeepsClaim row')
    (h' : row'.KeepsClaim row'') : row.KeepsClaim row'' :=
  ⟨h'.nodeVersion.trans h.nodeVersion, h'.claimToken.trans h.claimToken⟩

/-- What settling an attempt does to resume tokens and waits: a row without a resume token may get a
fresh one, a waiting row has one, and a row that pauses gets a wait when its type is one of those that
wait. -/
structure PauseEffect (env : EngineEnv) (before : EngineState) (id : RowId) (row row' : NodeRun)
    (after : EngineState) : Prop where
  nextToken : before.nextToken ≤ after.nextToken
  resumeToken : row'.resumeToken = row.resumeToken ∨ (row.resumeToken = none ∧
    ∃ token, before.nextToken ≤ token ∧ token < after.nextToken ∧ row'.resumeToken = some token)
  waiting : row'.status = .waiting → row'.resumeToken.isSome
  waits : ∃ created : List Wait, after.waits = before.waits ++ created ∧ created.length ≤ 1 ∧
    (∀ wait ∈ created, row'.status = .waiting ∧ wait.id = before.waits.length ∧
      wait.nodeRun = id ∧ row'.resumeToken = some wait.resumeToken ∧ wait.status = .pending ∧
      ∃ moment, (persistWaitingNode env.render env.parseResumeAt env.isoFormat moment id row' wait.id
        row'.outputJson row'.waitingReason).1 = [wait]) ∧
    (row'.status = .waiting → row'.nodeType ∈ ["delay", "wait", "approval"] → created ≠ [])

/-- How an attempt on a claimed row is settled: one more attempt is counted on the row, and it has
failed, is waiting, or has finished and is to be handed on. `nodeOutputs` are the outputs as the
resolution of the inputs has left them. -/
structure Settled (env : EngineEnv) (impl : NodeImpl) (before : Executed) (nodeOutputs : JsonObject)
    (id : RowId) (row row' : NodeRun) (settled : Executed × Option Finish) : Prop where
  nodes : settled.1.state.nodes = before.state.nodes.put id row'
  run : settled.1.state.run = before.state.run
  nodeType : row'.nodeType = row.nodeType
  attempt : row'.attempt = row.attempt + 1
  cancellation : row'.cancellationRequested = row.cancellationRequested
  reason : row'.waitingReason = row.waitingReason ∨ row'.status = .waiting
  outbox : ∃ woken : List Envelope, settled.1.state.outbox = before.state.outbox ++ woken ∧
    ∀ envelope ∈ woken, ∃ token outcome decision,
      envelope.message = .resume token outcome decision ∧ outcome ∈ ["elapsed", "expired"]
  claim : row.KeepsClaim row'
  pause : PauseEffect env before.state id row row' settled.1.state
  outcome :
    (settled.2 = none ∧ AttemptFailed impl row') ∨
    (settled.2 = none ∧ row'.status = .waiting ∧
      settled.1.nodeOutputs = storeOutput nodeOutputs id row'.outputJson ∧
      ∃ raw, impl.validateOutput raw = .ok row'.outputJson) ∨
    (settled.2 = some { id := id, status := row'.status, output := row'.outputJson } ∧
      row'.status.isSuccess ∧
      settled.1.nodeOutputs = storeOutput nodeOutputs id row'.outputJson ∧
      ∃ raw, impl.validateOutput raw = .ok row'.outputJson)

theorem NodeRun.recordTaskExecution_frame (task : Option ℕ) (row : NodeRun) :
    (recordTaskExecution task row).nodeType = row.nodeType ∧
      (recordTaskExecution task row).attempt = row.attempt ∧
      (recordTaskExecution task row).status = row.status ∧
      (recordTaskExecution task row).cancellationRequested = row.cancellationRequested ∧
      (recordTaskExecution task row).waitingReason = row.waitingReason := by
  cases task <;> exact ⟨rfl, rfl, rfl, rfl, rfl⟩

theorem NodeRun.outputJson_recordTaskExecution (task : Option ℕ) (row : NodeRun) :
    (recordTaskExecution task row).outputJson = row.outputJson := by
  cases task <;> rfl

theorem NodeRun.recordTaskExecution_tokens (task : Option ℕ) (row : NodeRun) :
    row.KeepsClaim (recordTaskExecution task row) ∧
      (recordTaskExecution task row).resumeToken = row.resumeToken := by
  cases task <;> exact ⟨⟨rfl, rfl⟩, rfl⟩

theorem persistFailure_attemptFailed (render : Json → String) (draw : ℚ) (impl : NodeImpl)
    (error : JsonObject) (errorClass : String) (row : NodeRun) :
    AttemptFailed impl (persistFailure render now draw impl.retryPolicy error errorClass row) := by
  rcases persistFailure_status render now draw impl.retryPolicy error errorClass row with
    hfailed | ⟨hready, hretry, hnext⟩
  · exact .inl hfailed.1
  · refine .inr ⟨hready, ?_, errorClass, ?_, ?_⟩
    · rw [hnext]
      rfl
    · unfold persistFailure
      rw [if_pos hretry]
    · rwa [(persistFailure_frame render now draw impl.retryPolicy error errorClass row).2.1]

theorem persistWaitingNode_resume (render : Json → String) (parseResumeAt : Json → Option Time)
    (isoFormat : Time → String) (id : RowId) (row : NodeRun) (waitId : ℕ) (output : JsonObject)
    (reason : Option String) : ∀ envelope ∈
      (persistWaitingNode render parseResumeAt isoFormat now id row waitId output reason).2,
      ∃ token outcome decision, envelope.message = .resume token outcome decision ∧
        outcome ∈ ["elapsed", "expired"] := by
  intro envelope hmem
  unfold persistWaitingNode at hmem
  split at hmem
  · simp at hmem
  · rename_i token _
    split_ifs at hmem
    · rw [mem_singleton] at hmem
      exact ⟨token, "elapsed", _, by rw [hmem]; rfl, by simp⟩
    · rw [mem_toList, map_eq_some_iff] at hmem
      obtain ⟨wakeAt, -, rfl⟩ := hmem
      exact ⟨token, "expired", _, rfl, by simp⟩
    · rw [mem_singleton] at hmem
      exact ⟨token, "expired", _, by rw [hmem]; rfl, by simp⟩
    · simp at hmem

/-- The wait of a paused row: at most one, pending, under the token of the row. -/
theorem persistWaitingNode_waits (now : Time) (render : Json → String) (parseResumeAt : Json → Option Time)
    (isoFormat : Time → String) (id : RowId)
    (htoken : row.resumeToken = some token) (waitId : ℕ) (output : JsonObject)
    (reason : Option String) :
    let created :=
      (persistWaitingNode render parseResumeAt isoFormat now id row waitId output reason).1
    created.length ≤ 1 ∧
      (∀ wait ∈ created, wait.id = waitId ∧ wait.nodeRun = id ∧ wait.resumeToken = token ∧
        wait.status = .pending) ∧
      (row.nodeType ∈ ["delay", "wait", "approval"] → created ≠ []) := by
  unfold persistWaitingNode
  rw [htoken]
  dsimp only
  by_cases hdelay : row.nodeType = "delay" ∨ reason = some "delay_until"
  · rw [if_pos hdelay]
    exact ⟨by simp, by simp, by simp⟩
  rw [if_neg hdelay]
  by_cases hwait : row.nodeType = "wait" ∨ reason = some "event_pending"
  · rw [if_pos hwait]
    exact ⟨by simp, by simp, by simp⟩
  rw [if_neg hwait]
  by_cases happroval : row.nodeType = "approval" ∨ reason = some "approval_pending"
  · rw [if_pos happroval]
    exact ⟨by simp, by simp, by simp⟩
  rw [if_neg happroval]
  refine ⟨by simp, by simp, fun hmem ↦ ?_⟩
  simp only [mem_cons, not_mem_nil, or_false] at hmem
  rcases hmem with htype | htype | htype
  · exact absurd (.inl htype) hdelay
  · exact absurd (.inl htype) hwait
  · exact absurd (.inl htype) happroval

theorem NodeTable.put_put (t : NodeTable) (id : RowId) (row row' : NodeRun) :
    (t.put id row).put id row' = t.put id row' :=
  modify_modify _ _ _ _

/-- The tokens and waits of an attempt that does not pause. Assumes: the attempt has drawn one token,
and the row keeps the resume token of the attempt. -/
theorem pauseEffect_of_not_waiting
    {before after : EngineState} (hnext : after.nextToken = before.nextToken + 1)
    (hwaits : after.waits = before.waits)
    (hresume : attempt.resumeToken = row.resumeToken ∨
      (row.resumeToken = none ∧ attempt.resumeToken = some before.nextToken))
    (htoken : row'.resumeToken = attempt.resumeToken) (hstatus : row'.status ≠ .waiting) :
    PauseEffect env before id row row' after where
  nextToken := by omega
  resumeToken := by
    rw [htoken]
    rcases hresume with hsame | ⟨hnone, hfresh⟩
    · exact .inl hsame
    · exact .inr ⟨hnone, before.nextToken, le_rfl, by omega, hfresh⟩
  waiting := fun hwaiting ↦ absurd hwaiting hstatus
  waits := by
    refine ⟨[], by rw [hwaits, append_nil], by simp, by simp, fun hwaiting ↦ ?_⟩
    exact absurd hwaiting hstatus

theorem pauseEffect_pause (env : EngineEnv) (now : Time)
    {before begun : EngineState} (hnext : begun.nextToken = before.nextToken + 1)
    (hwaits : begun.waits = before.waits)
    (hresume : attempt.resumeToken = row.resumeToken ∨
      (row.resumeToken = none ∧ attempt.resumeToken = some before.nextToken))
    (reason : Option String) (output : JsonObject) {after : EngineState}
    (hnext' : after.nextToken = begun.nextToken + 1)
    (hwaits' : after.waits = begun.waits ++ (persistWaitingNode env.render env.parseResumeAt
      env.isoFormat now id (attempt.pause reason begun.nextToken output) begun.waits.length output
      reason).1) :
    PauseEffect env before id row (attempt.pause reason begun.nextToken output) after := by
  obtain ⟨token, htoken⟩ : ∃ token,
      (attempt.pause reason begun.nextToken output).resumeToken = some token := by
    change ∃ token, attempt.resumeToken.or (some begun.nextToken) = some token
    cases attempt.resumeToken <;> simp
  obtain ⟨hlength, hcreated, htypes⟩ := persistWaitingNode_waits now env.render
    env.parseResumeAt env.isoFormat id htoken begun.waits.length output reason
  refine ⟨by omega, ?_, fun _ ↦ by rw [htoken]; rfl, _, by rw [hwaits', hwaits], ?_, ?_, ?_⟩
  · change attempt.resumeToken.or (some begun.nextToken) = row.resumeToken ∨ (_ ∧ ∃ token, _ ∧ _ ∧
      attempt.resumeToken.or (some begun.nextToken) = some token)
    rcases hresume with hsame | ⟨hnone, hfresh⟩
    · cases hrow : row.resumeToken with
      | none =>
        rw [hsame, hrow]
        exact .inr ⟨rfl, begun.nextToken, by omega, by omega, rfl⟩
      | some old =>
        rw [hsame, hrow]
        exact .inl rfl
    · rw [hfresh]
      exact .inr ⟨hnone, before.nextToken, le_rfl, by omega, rfl⟩
  · rwa [← hwaits]
  · intro wait hmem
    rw [← hwaits] at hmem
    obtain ⟨hid, hnode, hwaitToken, hpending⟩ := hcreated wait hmem
    refine ⟨rfl, by rw [hid, hwaits], hnode, by rw [htoken, hwaitToken], hpending, now, ?_⟩
    rw [hid]
    obtain ⟨other, hsingle⟩ := length_eq_one_iff.mp
      (le_antisymm hlength (length_pos_of_mem hmem))
    rw [hsingle, mem_singleton] at hmem
    rw [hmem]
    exact hsingle
  · intro _ htype
    rw [← hwaits]
    exact htypes htype

/-- Writing the verdict on an attempt settles it. Assumes: `attempt` is the row of the attempt, and
the output of a result that is not a failure has passed its schema. -/
theorem recordOutcome_settled (env : EngineEnv) (now : Time) (draw : ℚ)
    (begun : Executed)
    (hnodes : begun.state.nodes = before.state.nodes.put id attempt)
    (hrun : begun.state.run = before.state.run)
    (houtbox : begun.state.outbox = before.state.outbox)
    (hnext : begun.state.nextToken = before.state.nextToken + 1)
    (hwaits : begun.state.waits = before.state.waits)
    (htype : attempt.nodeType = row.nodeType) (hattempt : attempt.attempt = row.attempt + 1)
    (hcancel : attempt.cancellationRequested = row.cancellationRequested)
    (hreason : attempt.waitingReason = row.waitingReason) (hclaim : row.KeepsClaim attempt)
    (hresume : attempt.resumeToken = row.resumeToken ∨
      (row.resumeToken = none ∧ attempt.resumeToken = some before.state.nextToken))
    {verdict : Verdict}
    (hverdict : ∀ result output, verdict = .result result output → result.status ≠ .failed →
      ∃ raw, impl.validateOutput raw = .ok output) :
    ∃ row', Settled env impl before begun.nodeOutputs id row row'
      (recordOutcome env now draw id attempt impl.retryPolicy begun verdict) := by
  have hput : ∀ row', begun.state.nodes.put id row' = before.state.nodes.put id row' := by
    intro row'
    rw [hnodes, NodeTable.put_put]
  have hquiet : ∃ woken : List Envelope, begun.state.outbox = before.state.outbox ++ woken ∧
      ∀ envelope ∈ woken, ∃ token outcome decision,
        envelope.message = .resume token outcome decision ∧ outcome ∈ ["elapsed", "expired"] := by
    refine ⟨[], by rw [houtbox, append_nil], fun envelope hmem ↦ ?_⟩
    simp at hmem
  -- every verdict but a pause leaves the waits alone
  have hfailure : ∀ (error : JsonObject) (errorClass : String) (failing : NodeRun),
      failing.nodeVersion = attempt.nodeVersion → failing.claimToken = attempt.claimToken →
      failing.resumeToken = attempt.resumeToken →
      row.KeepsClaim (persistFailure env.render now draw impl.retryPolicy error errorClass failing) ∧
        ∀ after : EngineState, after.nextToken = begun.state.nextToken →
          after.waits = begun.state.waits → PauseEffect env before.state id row
            (persistFailure env.render now draw impl.retryPolicy error errorClass failing) after := by
    intro error errorClass failing hversion hclaimToken htoken
    obtain ⟨h1, h2, h3⟩ := persistFailure_tokens env.render now draw impl.retryPolicy error errorClass
      failing
    refine ⟨hclaim.trans ⟨h1.trans hversion, h2.trans hclaimToken⟩, fun after hafter hafterWaits ↦ ?_⟩
    refine pauseEffect_of_not_waiting (hafter.trans hnext) (hafterWaits.trans hwaits) hresume
      (h3.trans htoken) ?_
    rcases persistFailure_status env.render now draw impl.retryPolicy error errorClass failing with
      ⟨hstatus, -⟩ | ⟨hstatus, -⟩
    · rw [hstatus]
      decide
    · rw [hstatus]
      decide
  cases verdict with
  | failure error errorClass =>
    obtain ⟨h1, h2, h3, -⟩ := persistFailure_frame env.render now draw impl.retryPolicy error
      errorClass attempt
    obtain ⟨hkeeps, hpause⟩ := hfailure error errorClass attempt rfl rfl rfl
    refine ⟨persistFailure env.render now draw impl.retryPolicy error errorClass attempt,
      hput _, hrun, h1.trans htype, h2.trans hattempt, ?_, .inl (h3.trans hreason), hquiet,
      hkeeps, hpause _ rfl rfl, .inl ⟨rfl, persistFailure_attemptFailed _ _ _ _ _ _⟩⟩
    exact (persistFailure_cancellation _ _ _ _ _ _ _).trans hcancel
  | result result output =>
    have hvalid := hverdict result output rfl
    obtain ⟨status, raw, error, reason⟩ := result
    cases status with
    | succeeded =>
      exact ⟨attempt.finish now .succeeded output, hput _, hrun, htype, hattempt, hcancel,
        .inl hreason, hquiet, hclaim.trans ⟨rfl, rfl⟩,
        pauseEffect_of_not_waiting hnext hwaits hresume rfl NodeStatus.noConfusion,
        .inr (.inr ⟨rfl, rfl, rfl, hvalid (by simp)⟩)⟩
    | skipped =>
      exact ⟨attempt.finish now .skipped output, hput _, hrun, htype, hattempt, hcancel,
        .inl hreason, hquiet, hclaim.trans ⟨rfl, rfl⟩,
        pauseEffect_of_not_waiting hnext hwaits hresume rfl NodeStatus.noConfusion,
        .inr (.inr ⟨rfl, rfl, rfl, hvalid (by simp)⟩)⟩
    | waiting =>
      refine ⟨attempt.pause reason begun.state.nextToken output, hput _, hrun, htype,
        hattempt, hcancel, .inr rfl, ⟨_, congrArg (· ++ _) houtbox, ?_⟩,
        hclaim.trans ⟨rfl, rfl⟩,
        pauseEffect_pause env now hnext hwaits hresume reason output rfl rfl,
        .inr (.inl ⟨rfl, rfl, rfl, hvalid (by simp)⟩)⟩
      exact persistWaitingNode_resume _ _ _ _ _ _ _ _
    | failed =>
      let payload := (error.filter (¬ ·.isEmpty)).getD [("code", .str "node_failed")]
      obtain ⟨h1, h2, h3, -⟩ := persistFailure_frame env.render now draw impl.retryPolicy payload
        (classifyErrorPayload env.render payload).value { attempt with outputJson := output }
      obtain ⟨hkeeps, hpause⟩ := hfailure payload (classifyErrorPayload env.render payload).value
        { attempt with outputJson := output } rfl rfl rfl
      refine ⟨persistFailure env.render now draw impl.retryPolicy payload
          (classifyErrorPayload env.render payload).value { attempt with outputJson := output },
        hput _, hrun, h1.trans htype, h2.trans hattempt, ?_, .inl (h3.trans hreason),
        hquiet, hkeeps, hpause _ rfl rfl, .inl ⟨rfl, persistFailure_attemptFailed _ _ _ _ _ _⟩⟩
      exact (persistFailure_cancellation _ _ _ _ _ _ _).trans hcancel

theorem judgeNode_validated {prepared : Prepared}
    {outcome : Except PyException NodeResult} {verdict : Verdict}
    (h : judgeNode env run graphNode prepared outcome = .ok verdict) {result : NodeResult}
    {output : JsonObject} (hresult : verdict = .result result output)
    (hstatus : result.status ≠ .failed) :
    ∃ raw, prepared.impl.validateOutput raw = .ok output := by
  unfold judgeNode at h
  split at h
  · rw [hresult] at h
    simp at h
  · rw [hresult] at h
    simp at h
  · rename_i result' _
    split_ifs at h with hfailed
    · rw [hresult] at h
      simp only [Except.ok.injEq, Verdict.result.injEq] at h
      rw [h.1] at hfailed
      exact absurd hfailed hstatus
    · split at h
      · rename_i output' hvalid
        rw [hresult] at h
        simp only [Except.ok.injEq, Verdict.result.injEq] at h
        exact ⟨result'.output, by rw [hvalid, h.2]⟩
      · split at h
        · simp at h
        · rw [hresult] at h
          simp at h

theorem prepareInputs_impl
    {nodeOutputs initialInputs : JsonObject} {prepared : Prepared}
    (h : prepareInputs env run t graphNode id row nodeOutputs initialInputs = .ok prepared) :
    env.registry.get graphNode.type graphNode.version = some prepared.impl := by
  unfold prepareInputs EngineEnv.registryGet at h
  cases hload : env.loadGlobals prepareNames with
  | error exc =>
    rw [hload] at h
    exact absurd h (by simp [bind, Except.bind])
  | ok _ =>
    cases hget : env.registry.get graphNode.type graphNode.version with
    | none =>
      rw [hload, hget] at h
      exact absurd h (by simp [bind, Except.bind])
    | some impl =>
      rw [hload, hget] at h
      simp only [bind, Except.bind] at h
      split at h
      · simp at h
      · rename_i resolved _
        cases hcircular : resolved.circular with
        | true =>
          rw [hcircular, if_pos rfl] at h
          cases h
        | false =>
          rw [hcircular, if_neg Bool.false_ne_true] at h
          rw [← Except.ok.inj h]

theorem beginAttempt_frame (now : Time) (prepared : Prepared) (task : Option ℕ) (token : ℕ) (row : NodeRun) :
    (row.beginAttempt now prepared task token).nodeType = row.nodeType ∧
      (row.beginAttempt now prepared task token).attempt = row.attempt + 1 ∧
      (row.beginAttempt now prepared task token).status = .running ∧
      (row.beginAttempt now prepared task token).cancellationRequested =
        row.cancellationRequested ∧
      (row.beginAttempt now prepared task token).waitingReason = row.waitingReason :=
  NodeRun.recordTaskExecution_frame task _

theorem beginAttempt_tokens (now : Time) (prepared : Prepared) (task : Option ℕ) (token : ℕ)
    (row : NodeRun) :
    row.KeepsClaim (row.beginAttempt now prepared task token) ∧
      ((row.beginAttempt now prepared task token).resumeToken = row.resumeToken ∨
        (row.resumeToken = none ∧
          (row.beginAttempt now prepared task token).resumeToken = some token)) := by
  obtain ⟨hclaim, hresume⟩ := NodeRun.recordTaskExecution_tokens task
    { row with
      status := .running
      attempt := row.attempt + 1
      startedAt := row.startedAt.or (some now)
      inputJson := prepared.inputs
      nextAttemptAt := none
      executionKey := some prepared.executionKey
      resumeToken :=
        if prepared.impl.mayPause then row.resumeToken.or (some token) else row.resumeToken }
  refine ⟨⟨hclaim.nodeVersion, hclaim.claimToken⟩, ?_⟩
  unfold NodeRun.beginAttempt
  rw [hresume]
  dsimp only
  split_ifs
  · cases row.resumeToken with
    | none => exact .inr ⟨rfl, rfl⟩
    | some old => exact .inl rfl
  · exact .inl rfl

/-- An attempt that does not raise is settled.
Assumes: the row has not succeeded, been skipped or paused. -/
theorem settleReadyNode_settled
    {initialInputs : JsonObject}
    (hrow : before.state.nodes.find args.row = some row)
    (hopen : ¬ (row.status = .succeeded ∨ row.status = .skipped ∨ row.status = .waiting))
    (h : settleReadyNode env now args graphNode before initialInputs = .ok settled) :
    ∃ prepared row', prepareInputs env before.state.run before.state.nodes graphNode args.row row
        before.nodeOutputs initialInputs = .ok prepared ∧
      Settled env prepared.impl before prepared.nodeOutputs args.row row row' settled := by
  unfold settleReadyNode at h
  rw [hrow] at h
  simp only [if_neg hopen, bind, Except.bind] at h
  split at h
  · simp at h
  · rename_i prepared hprepared
    split at h
    · simp at h
    · split at h
      · simp at h
      · rename_i verdict hverdict
        simp only [pure, Except.pure, Except.ok.injEq] at h
        obtain ⟨htype, hattempt, -, hcancel, hreason⟩ := beginAttempt_frame now prepared
          args.taskExecutionId before.state.nextToken row
        obtain ⟨hclaim, hresume⟩ := beginAttempt_tokens now prepared args.taskExecutionId
          before.state.nextToken row
        obtain ⟨row', hsettled⟩ := recordOutcome_settled env now args.draw
          { before with
            state.nodes := before.state.nodes.put args.row
              (row.beginAttempt now prepared args.taskExecutionId before.state.nextToken)
            state.nextToken := before.state.nextToken + 1
            nodeOutputs := prepared.nodeOutputs }
          rfl rfl rfl rfl rfl htype hattempt hcancel hreason hclaim hresume
          (fun result output hresult hstatus ↦ judgeNode_validated hverdict hresult hstatus)
        rw [h] at hsettled
        exact ⟨prepared, row', hprepared, hsettled⟩

/-- The write that settles an attempt. -/
theorem Settled.proceeds
    (h : Settled env impl before nodeOutputs id row row' settled)
    (hclaimed : row.status.isClaimed) : row.Proceeds row' := by
  have hactive : ¬ row.status.isSettled ∧ row.status ≠ .pending := by
    revert hclaimed
    cases row.status <;> decide
  refine .of_active h.nodeType hactive.1 hactive.2 ?_ ?_
  · rcases h.outcome with ⟨-, hfailed⟩ | ⟨-, hwaiting, -⟩ | ⟨-, hsuccess, -⟩
    · rcases hfailed with hfailed | ⟨hready, -⟩
      · rw [hfailed]
        decide
      · rw [hready]
        decide
    · rw [hwaiting]
      decide
    · intro hpending
      rw [hpending] at hsuccess
      exact absurd hsuccess (by decide)
  · rcases h.reason with hsame | hwaiting
    · exact .inr (.inl hsame)
    · exact .inr (.inr hwaiting)

/-- An attempt that is not handed on has not finished its row. -/
theorem Settled.not_isSuccess
    (h : Settled env impl before nodeOutputs id row row' settled) (hnone : settled.2 = none) :
    ¬ row'.status.isSuccess := by
  rcases h.outcome with ⟨-, hfailed⟩ | ⟨-, hwaiting, -⟩ | ⟨hsome, -⟩
  · rcases hfailed with hfailed | ⟨hready, -⟩
    · rw [hfailed]
      decide
    · rw [hready]
      decide
  · rw [hwaiting]
    decide
  · exact absurd (hnone.symm.trans hsome) (by simp)

/-! ### What a hand-off leaves alone -/

/-- Handing on a finished row changes only rows no worker has begun. -/
theorem HandOff.find_apply (env : EngineEnv) (now : Time) (h : HandOff)
    (hfind : h.nodes.find id = some row) (hskippable : ¬ row.status.isSkippable) :
    (h.apply env now).find id = some row := by
  have hunlock : ((unlockAfterNodeSuccess env.graph now h.nodes h.finish.id.nodeId
      h.finish.output).nodes).find id = some row :=
    invariant (P := fun t : NodeTable ↦ t.find id = some row)
      (fun _ _ hfound hstep ↦ find_of_unlockStep hstep hfound hskippable)
      (unlockAfterNodeSuccess_steps now h.nodes h.finish.id.nodeId h.finish.output) hfind
  unfold HandOff.apply
  split
  · unfold propagate
    split_ifs
    · exact invariant (P := fun t : NodeTable ↦ t.find id = some row)
        (fun _ _ hfound hstep ↦ find_of_spawnStep hstep hfound hskippable)
        (materializeFanOutSuccess_steps env.render now h.nodes _ _) hfind
    · exact invariant (P := fun t : NodeTable ↦ t.find id = some row)
        (fun _ _ hfound hstep ↦ find_of_spawnStep hstep hfound hskippable)
        (ensureDownstreamIteration_steps now h.nodes _ _ _) hfind
    · exact hunlock
  · exact hunlock

/-- The row of an attempt is not touched when it is handed on. -/
theorem Settled.find_handOn
    (h : Settled env impl before nodeOutputs id row row' settled)
    (env : EngineEnv) (now : Time) (nodeType : String)
    (hrow : before.state.nodes.find id = some row) :
    (handOn env now nodeType settled).state.nodes.find id = some row' := by
  have hfind : settled.1.state.nodes.find id = some row' := by
    rw [h.nodes]
    exact find_put_self _ _ hrow
  obtain ⟨done, finish⟩ := settled
  cases finish with
  | none => exact hfind
  | some finish =>
    rcases h.outcome with ⟨hnone, -⟩ | ⟨hnone, -⟩ | ⟨-, hsuccess, -⟩
    · simp at hnone
    · simp at hnone
    · have hskippable : ¬ row'.status.isSkippable := by
        revert hsuccess
        cases row'.status <;> decide
      exact HandOff.find_apply env now
        { finish := finish, nodeType := some nodeType, nodes := done.state.nodes } hfind hskippable

/-! ### The decomposition -/

/-- A row that an operation finishes: the worker held it or it waited, and it has been written with
the status and output that are handed on. -/
structure HandsOff (g : WorkflowGraph) (st : EngineState) (h : HandOff) (row row' : NodeRun) :
    Prop where
  find : st.nodes.find h.finish.id = some row
  nodes : h.nodes = st.nodes.put h.finish.id row'
  status : row'.status = h.finish.status
  output : row'.outputJson = h.finish.output
  success : h.finish.status.isSuccess
  proceeds : row.Proceeds row'
  held : match h.nodeType with
    | some nodeType => row.status.isClaimed ∧
        ∃ node, g.node? h.finish.id.nodeId = some node ∧ node.type = nodeType
    | none => row.status = .waiting ∧ h.finish.status = .succeeded

/-- What an operation does to the rows: quiet steps, or a row finishes, is handed on, and quiet
steps follow. -/
def RowEffect (env : EngineEnv) (now : Time) (st : EngineState) (handOff : Option HandOff)
    (st' : EngineState) : Prop :=
  match handOff with
  | none => ReflTransGen (QuietStep env.graph) st.nodes st'.nodes
  | some h => (∃ row row', HandsOff env.graph st h row row') ∧
      ReflTransGen (QuietStep env.graph) (h.apply env now) st'.nodes

theorem beginNodeExecution_eq_some {task : Option ℕ} {begun : NodeRun}
    (h : beginNodeExecution lease now token worker task row = some begun) :
    row.status.isClaimed ∧ row.cancellationRequested = false ∧ begun.status = .running ∧
      begun.nodeType = row.nodeType ∧ begun.cancellationRequested = false ∧
      begun.waitingReason = row.waitingReason ∧ begun.attempt = row.attempt := by
  unfold beginNodeExecution at h
  rw [ite_none_right_eq_some] at h
  obtain ⟨⟨-, hcancel, hclaimed⟩, hbegun⟩ := h
  cases hbegun
  obtain ⟨htype, hattempt, hstatus, hrequested, hreason⟩ :=
    NodeRun.recordTaskExecution_frame task
      { row with
        status := .running
        claimExpiresAt := some (now + lease)
        lastHeartbeatAt := some now
        workerTaskId := (worker.filter (· ≠ "")).or row.workerTaskId }
  have hfalse : row.cancellationRequested = false := by simpa using hcancel
  exact ⟨hclaimed, hfalse, hstatus, htype, hrequested.trans hfalse, hreason, hattempt⟩

theorem outputJson_beginNodeExecution {task : Option ℕ} {begun : NodeRun}
    (h : beginNodeExecution lease now token worker task row = some begun) :
    begun.outputJson = row.outputJson := by
  unfold beginNodeExecution at h
  rw [ite_none_right_eq_some] at h
  rw [← Option.some.inj h.2, NodeRun.outputJson_recordTaskExecution]

/-- The claim that begins an execution, and the tokens of the row. -/
theorem beginNodeExecution_tokens {task : Option ℕ} {begun : NodeRun}
    (h : beginNodeExecution lease now token worker task row = some begun) :
    row.claimToken = some token ∧ row.KeepsClaim begun ∧ begun.resumeToken = row.resumeToken := by
  unfold beginNodeExecution at h
  rw [ite_none_right_eq_some] at h
  obtain ⟨⟨htoken, -⟩, hbegun⟩ := h
  cases hbegun
  obtain ⟨hclaim, hresume⟩ := NodeRun.recordTaskExecution_tokens task
    { row with
      status := .running
      claimExpiresAt := some (now + lease)
      lastHeartbeatAt := some now
      workerTaskId := (worker.filter (· ≠ "")).or row.workerTaskId }
  exact ⟨htoken, ⟨hclaim.nodeVersion, hclaim.claimToken⟩, hresume⟩

theorem completeNode_continues (token : Option ℕ) (row : NodeRun) :
    row.Continues (completeNode token row) := by
  unfold completeNode
  split_ifs
  · exact ⟨⟨rfl, fun _ ↦ ⟨rfl, rfl, rfl⟩, .inl, id, .inr (.inl rfl)⟩, id⟩
  · exact .refl row

theorem honourCancellation_eq_self (hrun : run.status ≠ .cancelled)
    (hrow : row.cancellationRequested = false) : row.honourCancellation run = row := by
  unfold NodeRun.honourCancellation shouldAbortNode
  rw [if_neg]
  rintro ⟨-, habort⟩
  simp [hrun, hrow] at habort

/-- The end of an execution releases the claim, and advances unless a retry was scheduled. -/
theorem completeExecution_steps {done : Executed} (hrun : done.state.run.status ≠ .cancelled)
    (hrow : ∀ row, done.state.nodes.find id = some row → row.cancellationRequested = false) :
    ReflTransGen (QuietStep env.graph) done.state.nodes
      (followUp env now draw id (completeExecution env now token id done)).nodes := by
  have hcomplete : ReflTransGen (QuietStep env.graph) done.state.nodes
      (completeExecution env now token id done).nodes := by
    have hstep : QuietStep env.graph done.state.nodes (done.state.nodes.modify id fun row ↦
        completeNode (some token) (row.honourCancellation done.state.run)) := by
      refine quietStep_modify _ _ _ fun row hfind ↦ ?_
      rw [honourCancellation_eq_self hrun (hrow row hfind)]
      exact completeNode_continues _ row
    exact .single hstep
  refine hcomplete.trans ?_
  unfold followUp
  split
  · split_ifs
    · exact .refl
    · exact advance_steps _
    · exact .refl
  · split_ifs
    · exact advance_steps _
    · exact .refl

theorem abort_continues {token : Option ℕ} (hsettled : ¬ row.status.isSettled)
    (hpending : row.status ≠ .pending) : row.Continues (row.abort now token) := by
  have hsucceeded : row.status ≠ .succeeded := by
    intro h
    rw [h] at hsettled
    exact hsettled (by decide)
  have hcancelled : ∀ row' : NodeRun, (completeNode token row').status = row'.status ∧
      (completeNode token row').nodeType = row'.nodeType ∧
      (completeNode token row').waitingReason = row'.waitingReason := by
    intro row'
    unfold completeNode
    split_ifs <;> exact ⟨rfl, rfl, rfl⟩
  unfold abort
  simp only [if_neg hsucceeded]
  refine NodeRun.Proceeds.continues
    (.of_active (hcancelled _).2.1 hsettled hpending ?_ (.inl (hcancelled _).2.2)) ?_
  · rw [(hcancelled _).1]
    exact NodeStatus.noConfusion
  · rw [(hcancelled _).1]
    exact (show ¬ cancelled.isSuccess by decide)

/-- An execution that got as far as the attempt: the row it began, the node, what the attempt was prepared
with, and how it was settled. -/
structure Ran (env : EngineEnv) (now : Time) (args : ExecuteArgs) (st : EngineState)
    (row begun row' : NodeRun) (graphNode : GraphNode) (prepared : Prepared)
    (settled : Executed × Option Finish) : Prop where
  open_run : ¬ st.run.status.isTerminal
  find : st.nodes.find args.row = some row
  claimed : row.status.isClaimed
  begun_proceeds : row.Proceeds begun
  begun_status : begun.status = .running
  begun_cancellation : begun.cancellationRequested = false
  begun_attempt : begun.attempt = row.attempt
  begun_nodeType : begun.nodeType = row.nodeType
  begun_claim : row.KeepsClaim begun
  begun_resumeToken : begun.resumeToken = row.resumeToken
  node : env.graph.node? args.row.nodeId = some graphNode
  prepares : prepareInputs env st.run (st.nodes.put args.row begun) graphNode args.row begun
    (asDict (st.run.contextSnapshot.get "node_outputs"))
    (asDict (st.run.contextSnapshot.get "initial_inputs")) = .ok prepared
  settle : settleReadyNode env now args graphNode
    { state := { st with nodes := st.nodes.put args.row begun }
      nodeOutputs := asDict (st.run.contextSnapshot.get "node_outputs") }
    (asDict (st.run.contextSnapshot.get "initial_inputs")) = .ok settled
  settled : Settled env prepared.impl
    { state := { st with nodes := st.nodes.put args.row begun }
      nodeOutputs := asDict (st.run.contextSnapshot.get "node_outputs") }
    prepared.nodeOutputs args.row begun row' settled

/-- The ways an execution can end without raising, each with what it hands off. -/
inductive ExecuteEffect (env : EngineEnv) (now : Time) (args : ExecuteArgs) (token : ℕ) (draw : ℚ)
    (st : EngineState) : Option HandOff → EngineState → Prop
  | aborted (hterminal : st.run.status.isTerminal) :
    ExecuteEffect env now args token draw st none
      { st with
        nodes := st.nodes.modify args.row fun row ↦
          if row.status = .queued ∨ row.status = .running ∨ row.status = .ready then
            row.abort now (if row.claimToken = some token then some token else none)
          else row }
  | rejected (hrejected : ∀ row, st.nodes.find args.row = some row →
      ¬ (row.claimToken = some token ∧ row.cancellationRequested = false ∧ row.status.isClaimed)) :
    ExecuteEffect env now args token draw st none st
  | missing (row begun failed : NodeRun) (hopen : ¬ st.run.status.isTerminal)
      (hrow : st.nodes.find args.row = some row) (hproceeds : row.Proceeds failed)
      (hstatus : failed.status = .failed) (hresume : failed.resumeToken = row.resumeToken)
      (hnode : env.graph.node? args.row.nodeId = none) (hclaimed : row.status.isClaimed) :
    ExecuteEffect env now args token draw st none
      ({ st with nodes := st.nodes.put args.row failed }.finalize env now)
  | ran (row begun row' : NodeRun) (graphNode : GraphNode) (prepared : Prepared)
      (settled : Executed × Option Finish)
      (hran : Ran env now args st row begun row' graphNode prepared settled) :
    ExecuteEffect env now args token draw st (settledHandOff graphNode.type (.ok settled))
      (followUp env now draw args.row
        (completeExecution env now token args.row (handOn env now graphNode.type settled)))

theorem NodeStatus.active_of_isClaimed {status : NodeStatus} (h : status.isClaimed) :
    ¬ status.isSettled ∧ status ≠ .pending := by
  revert h
  cases status <;> decide

theorem executeClaimedNodeRun_effect
    (h : executeClaimedNodeRun env now args token worker draw st = .ok st') :
    ExecuteEffect env now args token draw st
      (Op.handOff env now (.execute args token worker draw) st) st' := by
  unfold executeClaimedNodeRun at h
  unfold Op.handOff
  by_cases hterminal : st.run.status.isTerminal
  · simp only [if_pos hterminal, Except.ok.injEq] at h ⊢
    rw [← h]
    exact .aborted hterminal
  simp only [if_neg hterminal] at h ⊢
  cases hbegin : (st.nodes.find args.row).bind
      (beginNodeExecution env.claimLease now token worker args.taskExecutionId) with
  | none =>
    rw [hbegin] at h
    simp only [Except.ok.injEq] at h
    rw [← h]
    refine .rejected fun row hrow hheld ↦ ?_
    rw [hrow, bind_some, beginNodeExecution,
      if_pos ⟨hheld.1, by simp [hheld.2.1], hheld.2.2⟩] at hbegin
    simp at hbegin
  | some begun =>
    rw [hbegin] at h
    obtain ⟨row, hrow, hrowBegun⟩ := bind_eq_some_iff.mp hbegin
    obtain ⟨hclaimed, -, hstatus, htype, hcancel, hreason, hattempt⟩ :=
      beginNodeExecution_eq_some hrowBegun
    obtain ⟨-, hkeeps, hresume⟩ := beginNodeExecution_tokens hrowBegun
    obtain ⟨hsettledRow, hpendingRow⟩ := NodeStatus.active_of_isClaimed hclaimed
    have habort : ¬ shouldAbortNode begun st.run := by
      have hrunning : st.run.status ≠ .cancelled := by
        intro hcancelled
        rw [hcancelled] at hterminal
        exact hterminal (by decide)
      simp [shouldAbortNode, hrunning, hcancel]
    simp only [if_neg habort] at h ⊢
    cases hnode : env.graph.node? args.row.nodeId with
    | none =>
      rw [hnode] at h
      simp only [Except.ok.injEq, NodeTable.put_put] at h
      rw [← h]
      exact .missing row begun _ hterminal hrow
        (.of_active htype hsettledRow hpendingRow NodeStatus.noConfusion
          (.inr (.inl hreason))) rfl hresume hnode hclaimed
    | some graphNode =>
      rw [hnode] at h
      simp only [executeReadyNode] at h ⊢
      cases hsettle : settleReadyNode env now args graphNode
          { state := { st with nodes := st.nodes.put args.row begun }
            nodeOutputs := asDict (st.run.contextSnapshot.get "node_outputs") }
          (asDict (st.run.contextSnapshot.get "initial_inputs")) with
      | error exc =>
        rw [hsettle] at h
        exact absurd h (by simp [Except.map, bind, Except.bind])
      | ok settled =>
        rw [hsettle] at h
        simp only [Except.map, bind, Except.bind, pure, Except.pure, Except.ok.injEq] at h
        rw [← h]
        obtain ⟨prepared, row', hprepared, hsettled⟩ := settleReadyNode_settled
          (find_put_self _ _ hrow) (by rw [hstatus]; decide) hsettle
        refine .ran row begun row' graphNode prepared settled
          ⟨hterminal, hrow, hclaimed, ?_, hstatus, hcancel, hattempt, htype, hkeeps, hresume, hnode,
            hprepared, hsettle, hsettled⟩
        refine .of_active htype hsettledRow hpendingRow ?_ (.inr (.inl hreason))
        rw [hstatus]
        decide

section Ran

variable {begun : NodeRun} {prepared : Prepared}

theorem Ran.registered (h : Ran env now args st row begun row' graphNode prepared settled) :
    env.registry.get graphNode.type graphNode.version = some prepared.impl :=
  prepareInputs_impl h.prepares

/-- The row goes from the claim to the settled attempt in one write. -/
theorem Ran.nodes (h : Ran env now args st row begun row' graphNode prepared settled) :
    settled.1.state.nodes = st.nodes.put args.row row' :=
  h.settled.nodes.trans (NodeTable.put_put _ _ _ _)

theorem Ran.find_settled (h : Ran env now args st row begun row' graphNode prepared settled) :
    settled.1.state.nodes.find args.row = some row' := by
  rw [h.nodes]
  exact find_put_self _ _ h.find

theorem Ran.begun_claimed (h : Ran env now args st row begun row' graphNode prepared settled) :
    begun.status.isClaimed := by
  rw [h.begun_status]
  decide

theorem Ran.run_not_cancelled (h : Ran env now args st row begun row' graphNode prepared settled) :
    settled.1.state.run.status ≠ .cancelled := by
  rw [h.settled.run]
  intro hcancelled
  exact h.open_run (by
    rw [show st.run.status = .cancelled from hcancelled]
    decide)

theorem Ran.proceeds (h : Ran env now args st row begun row' graphNode prepared settled) :
    row.Proceeds row' := by
  obtain ⟨hsettledRow, hpendingRow⟩ := NodeStatus.active_of_isClaimed h.claimed
  obtain ⟨hsettledBegun, hpendingBegun⟩ := NodeStatus.active_of_isClaimed h.begun_claimed
  have hlast := h.settled.proceeds h.begun_claimed
  refine .of_active (h.settled.nodeType.trans h.begun_nodeType) hsettledRow hpendingRow
    (hlast.begun hpendingBegun) ?_
  rcases hlast.reason with hnone | hsame | hwaiting
  · exact .inl hnone
  · rcases h.begun_proceeds.reason with hnone' | hsame' | hwaiting'
    · exact .inl (hsame.trans hnone')
    · exact .inr (.inl (hsame.trans hsame'))
    · rw [h.begun_status] at hwaiting'
      exact absurd hwaiting' (by decide)
  · exact .inr (.inr hwaiting)

theorem Ran.handsOff (h : Ran env now args st row begun row' graphNode prepared settled)
    {finish : Finish} (hfinish : settled.2 = some finish) :
    HandsOff env.graph st
      { finish := finish, nodeType := some graphNode.type, nodes := settled.1.state.nodes }
      row row' ∧ finish.id = args.row := by
  rcases h.settled.outcome with ⟨hnone, -⟩ | ⟨hnone, -⟩ | ⟨hsome, hsuccess, -⟩
  · exact absurd (hfinish.symm.trans hnone) (by simp)
  · exact absurd (hfinish.symm.trans hnone) (by simp)
  · obtain rfl := mem_unique hfinish hsome
    exact ⟨⟨h.find, h.nodes, rfl, rfl, hsuccess, h.proceeds,
      ⟨h.claimed, graphNode, h.node, rfl⟩⟩, rfl⟩

/-- The row of the attempt is not touched when it is handed on. -/
theorem Ran.find_handOn (h : Ran env now args st row begun row' graphNode prepared settled) :
    (handOn env now graphNode.type settled).state.nodes.find args.row = some row' := by
  exact h.settled.find_handOn env now graphNode.type (find_put_self _ _ h.find)

theorem Ran.completeExecution_steps (h : Ran env now args st row begun row' graphNode prepared settled)
    (token : ℕ) (draw : ℚ) :
    ReflTransGen (QuietStep env.graph) (handOn env now graphNode.type settled).state.nodes
      (followUp env now draw args.row
        (completeExecution env now token args.row (handOn env now graphNode.type settled))).nodes := by
  refine Workflows.completeExecution_steps ?_ fun current hcurrent ↦ ?_
  · have hrun : (handOn env now graphNode.type settled).state.run = settled.1.state.run := by
      unfold handOn
      split <;> rfl
    rw [hrun]
    exact h.run_not_cancelled
  · rw [h.find_handOn] at hcurrent
    rw [← Option.some.inj hcurrent, h.settled.cancellation, h.begun_cancellation]

end Ran

/-- An execution as row steps. -/
theorem ExecuteEffect.rowEffect
    (h : ExecuteEffect env now args token draw st handOff st') :
    RowEffect env now st handOff st' := by
  cases h with
  | aborted hterminal =>
    have hstep : QuietStep env.graph st.nodes (st.nodes.modify args.row fun row ↦
        if row.status = .queued ∨ row.status = .running ∨ row.status = .ready then
          row.abort now (if row.claimToken = some token then some token else none)
        else row) := by
      refine quietStep_modify _ _ _ fun row _ ↦ ?_
      by_cases hstatus : row.status = .queued ∨ row.status = .running ∨ row.status = .ready
      · have hactive : ¬ row.status.isSettled ∧ row.status ≠ .pending := by
          rcases hstatus with hs | hs | hs <;> rw [hs] <;> decide
        rw [if_pos hstatus]
        exact abort_continues hactive.1 hactive.2
      · rw [if_neg hstatus]
        exact .refl row
    exact .single hstep
  | rejected => exact .refl
  | missing row begun failed _ hrow hproceeds hfailed =>
    exact .single (quietStep_put hrow (hproceeds.continues (by rw [hfailed]; decide)))
  | ran row begun row' graphNode prepared settled hran =>
    obtain ⟨done, finish⟩ := settled
    cases finish with
    | none =>
      refine ReflTransGen.trans (.single ?_) (hran.completeExecution_steps token draw)
      rw [show (handOn env now graphNode.type (done, none)).state.nodes =
        st.nodes.put args.row row' from hran.nodes]
      exact quietStep_put hran.find (hran.proceeds.continues (hran.settled.not_isSuccess rfl))
    | some finish =>
      exact ⟨⟨row, row', (hran.handsOff rfl).1⟩, hran.completeExecution_steps token draw⟩

/-! ### Decisions on waiting rows -/

/-- A decision on a waiting row: what the row becomes, and what it hands off when it succeeds. -/
structure Decided (env : EngineEnv) (now : Time) (st : EngineState) (id : RowId) (row row' : NodeRun)
    (handOff : Option HandOff) (decided : EngineState) : Prop where
  find : st.nodes.find id = some row
  waiting : row.status = .waiting
  proceeds : row.Proceeds row'
  waits : decided.waits = st.waits
  outbox : decided.outbox = st.outbox
  outcome :
    (handOff = none ∧ row'.status = .failed ∧ decided.nodes = st.nodes.put id row' ∧
      decided.run = st.run) ∨
    (∃ h, handOff = some h ∧ HandsOff env.graph st h row row' ∧ h.finish.id = id ∧
      row'.status = .succeeded ∧ h.nodeType = none ∧ decided.nodes = h.apply env now ∧
      decided.run = { st.run with status := .running })

/-- The ways a resume can end without raising. -/
inductive ResumeEffect (env : EngineEnv) (now : Time) (advances : Bool) (st : EngineState) :
    Option HandOff → EngineState → Prop
  | unchanged : ResumeEffect env now advances st none st
  | again : ResumeEffect env now advances st none (advance env now st)
  | decided (id : RowId) (row row' : NodeRun) (output : JsonObject) (waits : List Wait)
      (handOff : Option HandOff) (decided : EngineState)
      (h : Decided env now st id row row' handOff decided) :
    ResumeEffect env now advances st handOff
      (completeResume env now id output advances waits decided)

theorem NodeTable.find_of_byResumeToken {entry : RowId × NodeRun}
    (h : t.byResumeToken token = some entry) : t.find entry.1 = some entry.2 := by
  rw [find_eq_some_iff]
  exact mem_of_find?_eq_some h

theorem decideRow_decided (env : EngineEnv) (now : Time) (outcome : String)
    (output : JsonObject) (succeeds : Bool) (hfind : st.nodes.find id = some row)
    (hwaiting : row.status = .waiting) :
    ∃ row', Decided env now st id row row'
      (if succeeds then
        some
          { finish := { id := id, status := .succeeded, output := output }
            nodeType := none
            nodes := st.nodes.put id (row.resolve now .succeeded output none) }
      else none)
      (decideRow env now id row outcome output succeeds st) := by
  have hactive : ¬ row.status.isSettled ∧ row.status ≠ .pending := by
    rw [hwaiting]
    decide
  cases succeeds with
  | false =>
    refine ⟨row.resolve now .failed output _, hfind, hwaiting, ?_, rfl, rfl,
      .inl ⟨rfl, rfl, rfl, rfl⟩⟩
    exact .of_active rfl hactive.1 hactive.2 NodeStatus.noConfusion (.inl rfl)
  | true =>
    have hproceeds : row.Proceeds (row.resolve now .succeeded output none) :=
      .of_active rfl hactive.1 hactive.2 NodeStatus.noConfusion (.inl rfl)
    exact ⟨row.resolve now .succeeded output none, hfind, hwaiting, hproceeds, rfl, rfl,
      .inr ⟨_, rfl, ⟨hfind, rfl, rfl, rfl, rfl, hproceeds, hwaiting, rfl⟩, rfl, rfl, rfl, rfl,
        rfl⟩⟩

theorem resumeWaitingNode_effect {rawOutcome : String}
    (h : resumeWaitingNode env now token rawOutcome decision advances st = .ok st') :
    ResumeEffect env now advances st (tokenHandOff env now token rawOutcome decision st) st' := by
  unfold resumeWaitingNode at h
  unfold tokenHandOff
  dsimp only at h ⊢
  by_cases hvalid : pyLower (pyStrip rawOutcome) ∈ successOutcomes ++ failOutcomes
  · simp only [hvalid, not_true_eq_false, if_false, true_and] at h ⊢
    cases hentry : st.nodes.byResumeToken token with
    | none =>
      rw [hentry] at h
      simp at h
    | some entry =>
      rw [hentry] at h
      dsimp only at h ⊢
      by_cases hwaiting : entry.2.status = .waiting
      · have hfind := NodeTable.find_of_byResumeToken hentry
        simp only [hwaiting, reduceCtorEq, false_and, if_false, ne_eq, not_true_eq_false,
          resumeRow] at h
        simp only [if_pos hwaiting, resumeHandOff]
        obtain ⟨row', hdecided⟩ := decideRow_decided env now
          (pyLower (pyStrip rawOutcome))
          (resumedOutput entry.2 (pyLower (pyStrip rawOutcome)) decision
            (continuesAfterTimeout env.render (pyLower (pyStrip rawOutcome)) decision))
          (decide (pyLower (pyStrip rawOutcome) ∈ successOutcomes ∨
            continuesAfterTimeout env.render (pyLower (pyStrip rawOutcome)) decision = true))
          hfind hwaiting
        rw [hdecided.waits] at h
        cases hmarked : markResumed now token (pyLower (pyStrip rawOutcome)) decision entry.2
            st.waits with
        | error exc =>
          rw [hmarked] at h
          simp at h
        | ok waits =>
          rw [hmarked] at h
          simp only [Except.ok.injEq] at h
          rw [← h]
          simp only [decide_eq_true_eq] at hdecided
          exact .decided entry.1 entry.2 row' _ waits _ _ hdecided
      · simp only [hwaiting, if_false]
        simp only [hwaiting, ne_eq, not_false_eq_true, if_true] at h
        split_ifs at h
        · rw [← Except.ok.inj h]
          exact .again
        · rw [← Except.ok.inj h]
          exact .unchanged
        · rw [← Except.ok.inj h]
          exact .unchanged
  · simp only [hvalid, not_false_eq_true, if_true] at h
    simp at h

theorem completeResume_steps (env : EngineEnv) (now : Time) (id : RowId) (output : JsonObject) (advances : Bool)
    (waits : List Wait) (decided : EngineState) :
    ReflTransGen (QuietStep env.graph) decided.nodes
      (completeResume env now id output advances waits decided).nodes := by
  unfold completeResume
  dsimp only
  split_ifs
  · exact advance_steps (EngineState.finalize env now
      { decided with waits := waits, run := { decided.run with contextSnapshot := _ } })
  · exact .refl

/-- A resume as row steps. -/
theorem ResumeEffect.rowEffect
    (h : ResumeEffect env now advances st handOff st') : RowEffect env now st handOff st' := by
  cases h with
  | unchanged => exact .refl
  | again => exact advance_steps st
  | decided id row row' output waits handOff decided hdecided =>
    have hrest := completeResume_steps env now id output advances waits decided
    rcases hdecided.outcome with ⟨hnone, hfailed, hnodes, -⟩ | ⟨h, hsome, hoff, -, -, -, hnodes, -⟩
    · rw [hnone]
      refine ReflTransGen.trans (.single ?_) hrest
      rw [hnodes]
      exact quietStep_put hdecided.find (hdecided.proceeds.continues (by rw [hfailed]; decide))
    · rw [hsome]
      refine ⟨⟨row, row', hoff⟩, ?_⟩
      rw [← hnodes]
      exact hrest

/-! ### Events -/

/-- The event operation writes waits only. -/
theorem resolveEvent_eq_ok {eventKey : String} {payload : JsonObject}
    (h : Op.apply env now (.resolveEvent eventKey payload) st = .ok st') :
    ∃ resolved, resolveWaitByEventKey now eventKey payload st.waits = .ok resolved ∧
      st' = { st with waits := resolved.2 } := by
  rw [Op.apply] at h
  cases hresolved : resolveWaitByEventKey now eventKey payload st.waits with
  | error exc =>
    rw [hresolved] at h
    exact absurd h (by simp [Except.map])
  | ok resolved =>
    rw [hresolved] at h
    exact ⟨resolved, rfl, (Except.ok.inj h).symm⟩

theorem resumeRun_eq_ok {eventKey : String}
    (h : resumeRun env now eventKey decision advances st = .ok st') :
    ∃ token waits, resolveWaitByEventKey now eventKey decision st.waits = .ok (some token, waits) ∧
      resumeWaitingNode env now token "received" (eventDecision decision) advances
        { st with waits := waits } = .ok st' := by
  unfold resumeRun at h
  split at h
  · simp at h
  · simp at h
  · rename_i token waits hresolved
    exact ⟨token, waits, hresolved, h⟩

theorem RowEffect.of_nodes {st₀ : EngineState}
    (h : RowEffect env now st₀ handOff st') (hnodes : st₀.nodes = st.nodes) :
    RowEffect env now st handOff st' := by
  cases handOff with
  | none =>
    have hrun : ReflTransGen (QuietStep env.graph) st₀.nodes st'.nodes := h
    rwa [hnodes] at hrun
  | some handOff =>
    obtain ⟨⟨row, row', hoff⟩, hrun⟩ := h
    refine ⟨⟨row, row', ?_⟩, hrun⟩
    exact ⟨hnodes ▸ hoff.find, hnodes ▸ hoff.nodes, hoff.status, hoff.output, hoff.success,
      hoff.proceeds, hoff.held⟩

/-! ### The other operations -/

theorem cancel_continues (row : NodeRun) : row.Continues (row.cancel now) := by
  have hmark : ∀ row : NodeRun, ¬ row.status.isSettled →
      row.Continues (row.markCancelled now "cancelled by operator") := by
    intro row hsettled
    exact ⟨⟨rfl, fun h ↦ absurd h hsettled, fun _ ↦ .inr rfl, fun _ ↦ NodeStatus.noConfusion,
      .inl rfl⟩, fun h ↦ absurd h (by simp [NodeRun.markCancelled, isSuccess])⟩
  unfold NodeRun.cancel
  split
  · exact .refl row
  · exact .refl row
  · exact ⟨⟨rfl, fun _ ↦ ⟨rfl, rfl, rfl⟩, .inl, id, .inr (.inl rfl)⟩, id⟩
  · rename_i hsucceeded hskipped hcancelled
    refine hmark row ?_
    simp only [isSettled, decide_eq_true_eq, not_or]
    exact ⟨hsucceeded, hskipped, hcancelled⟩

/-- What recovery does to a row: a retry with a due time, or a failure. -/
theorem recover_status (env : EngineEnv) (now : Time) (draw : ℚ) (row : NodeRun) :
    let row' := row.recover env now draw
    row'.nodeType = row.nodeType ∧ row'.waitingReason = row.waitingReason ∧
      (row'.status = .failed ∨ (row'.status = .ready ∧ row'.nextAttemptAt.isSome)) := by
  unfold NodeRun.recover
  dsimp only
  split_ifs
  · exact ⟨rfl, rfl, .inr ⟨rfl, rfl⟩⟩
  · exact ⟨rfl, rfl, .inl rfl⟩

theorem claimed_of_stale {limit : ℕ}
    (hid : id ∈ (listStaleClaimedNodes now limit t).map Prod.fst) (hrow : t.find id = some row) :
    row.status.isClaimed := by
  obtain ⟨entry, hentry, rfl⟩ := List.mem_map.mp hid
  have hstale : entry ∈ t.entries ∧ entry.2.isStale now := by
    have hmem := mem_of_mem_take hentry
    rw [(perm_insertionSort _ _).mem_iff, mem_filter] at hmem
    exact hmem
  have hsame : some row = some entry.2 := by
    rw [← hrow, ← (find_eq_some_iff t entry.1 entry.2).mpr hstale.1]
  rw [Option.some.inj hsame]
  have := hstale.2
  simp only [NodeRun.isStale, Bool.and_eq_true] at this
  exact this.1

/-- The rows of stale claims stay begun while they are recovered one after the other. -/
theorem recoverStale_steps (limit : ℕ) (draw : RowId → ℚ) (st : EngineState) :
    ReflTransGen (QuietStep env.graph) st.nodes (recoverStale env now limit draw st).nodes := by
  unfold recoverStale
  dsimp only
  split_ifs with hempty
  · exact .refl
  refine (foldl_invariant (P := fun t : NodeTable ↦
    ReflTransGen (QuietStep env.graph) st.nodes t ∧
      ∀ id ∈ (listStaleClaimedNodes now limit st.nodes).map Prod.fst, ∀ row,
        t.find id = some row → ¬ row.status.isSettled ∧ row.status ≠ .pending) ?_ ⟨.refl, ?_⟩).1
  · rintro t id hid ⟨hrun, hactive⟩
    have hproceeds : ∀ row, t.find id = some row →
        row.Continues (row.recover env now (draw id)) := by
      intro row hrow
      obtain ⟨htype, hreason, hstatus⟩ := recover_status env now (draw id) row
      refine NodeRun.Proceeds.continues (.of_active htype (hactive id hid row hrow).1
        (hactive id hid row hrow).2 ?_ (.inr (.inl hreason))) ?_
      · rcases hstatus with hs | ⟨hs, -⟩ <;> rw [hs] <;> decide
      · rcases hstatus with hs | ⟨hs, -⟩ <;> rw [hs] <;> decide
    refine ⟨hrun.tail (quietStep_modify _ _ _ hproceeds), fun other hother row hrow ↦ ?_⟩
    rw [find_modify] at hrow
    split_ifs at hrow with hother'
    · obtain ⟨old, -, rfl⟩ := map_eq_some_iff.mp hrow
      rcases (recover_status env now (draw id) old).2.2 with hs | ⟨hs, -⟩
      · rw [hs]
        decide
      · rw [hs]
        decide
    · exact hactive other hother row hrow
  · intro id hid row hrow
    exact NodeStatus.active_of_isClaimed (claimed_of_stale hid hrow)

theorem resetFailedToReady_continues (h : row.status = .failed) :
    row.Continues row.resetFailedToReady := by
  refine NodeRun.Proceeds.continues (.of_active rfl ?_ ?_ NodeStatus.noConfusion (.inl rfl))
    (show ¬ ready.isSuccess by decide)
  · rw [h]
    decide
  · rw [h]
    decide

theorem checkRetry_eq_ok {u : Unit} (h : checkRetry run = .ok u) :
    run.status ≠ .cancelled ∧ run.status ≠ .succeeded := by
  unfold checkRetry at h
  split_ifs at h with hcancelled hsucceeded
  exact ⟨hcancelled, hsucceeded⟩

theorem retryNode_eq_ok (h : retryNode env now nodeId st = .ok st') :
    (st.run.status ≠ .cancelled ∧ st.run.status ≠ .succeeded) ∧
      ∃ id row, st.nodes.find id = some row ∧ row.status = .failed ∧
        st' = advance env now
          { st with
            nodes := st.nodes.modify id resetFailedToReady
            run := st.run.reopen } := by
  unfold retryNode at h
  cases hcheck : checkRetry st.run with
  | error exc =>
    rw [hcheck] at h
    exact absurd h (by simp [bind, Except.bind])
  | ok u =>
    rw [hcheck] at h
    simp only [bind, Except.bind] at h
    refine ⟨checkRetry_eq_ok hcheck, ?_⟩
    split at h
    · simp at h
    · rename_i id row hfound
      split_ifs at h with hsucceeded hfailed
      simp only [Except.ok.injEq] at h
      refine ⟨id, row, ?_, by simpa using hfailed, h.symm⟩
      rw [find_eq_some_iff]
      exact mem_of_find?_eq_some hfound

theorem cancelRun_eq_ok (h : cancelRun now st = .ok st') :
    st' = st ∨ (st.run.status ≠ .succeeded ∧ st'.run.status = .cancelled ∧
      st'.nodes = st.nodes.mapValues (fun _ row ↦ row.cancel now) ∧ st'.outbox = st.outbox) := by
  unfold cancelRun at h
  split_ifs at h with hsucceeded hcancelled
  · exact .inl (Except.ok.inj h).symm
  · rw [← Except.ok.inj h]
    exact .inr ⟨hsucceeded, rfl, rfl, rfl⟩

/-- A row of a descendant of `source` goes back to pending, unless it succeeded. -/
inductive ResetStep (g : WorkflowGraph) (source : String) (t : NodeTable) : NodeTable → Prop
  | intro (id : RowId) (row : NodeRun) (hlast : t.lastRow id.nodeId = some (id, row))
      (hancestor : g.Ancestor source id.nodeId) :
      ResetStep g source t (t.modify id NodeRun.resetDescendantToPending)

theorem NodeTable.lastRow_eq_some {entry : RowId × NodeRun}
    (h : t.lastRow nodeId = some entry) : t.find entry.1 = some entry.2 ∧ entry.1.nodeId = nodeId := by
  have hmem := mem_of_getLast? h
  rw [mem_filter] at hmem
  exact ⟨(find_eq_some_iff _ _ _).mpr hmem.1, by simpa using hmem.2⟩

/-- The queue loop of `retry_from_node` resets rows of descendants. -/
theorem resetLoop_steps (g : WorkflowGraph) (nodeId : String) (t : NodeTable) :
    ReflTransGen (ResetStep g nodeId) t (resetLoop g nodeId t).1.2 := by
  have htargets : ∀ source other, other ∈ (g.successors source).map GraphEdge.target →
      ∃ edge ∈ g.edges, edge.source = source ∧ edge.target = other := by
    intro source other hmem
    obtain ⟨edge, hedge, htarget⟩ := List.mem_map.mp hmem
    rw [WorkflowGraph.mem_successors] at hedge
    exact ⟨edge, hedge.1, hedge.2, htarget⟩
  refine (worklist_invariant (P := fun queue (acc : List String × NodeTable) ↦
    ReflTransGen (ResetStep g nodeId) t acc.2 ∧ ∀ other ∈ queue, g.Ancestor nodeId other)
    ?_ _ _ _ ⟨.refl, fun other hmem ↦ .single (htargets nodeId other hmem)⟩).1
  rintro current queue acc ⟨hrun, hqueue⟩
  have hcurrent := hqueue current mem_cons_self
  have hrest : ∀ other ∈ queue, g.Ancestor nodeId other := fun other hmem ↦
    hqueue other (mem_cons_of_mem _ hmem)
  unfold resetBody
  split_ifs with hseen
  · exact ⟨hrun, by simpa using hrest⟩
  · refine ⟨?_, fun other hmem ↦ ?_⟩
    · dsimp only
      split
      · exact hrun
      · rename_i entry hlast
        have hid := (NodeTable.lastRow_eq_some hlast).2
        exact hrun.tail (.intro entry.1 entry.2 (by rw [hid]; exact hlast) (by rwa [hid]))
    · rcases mem_append.mp hmem with hold | hnew
      · exact hrest other hold
      · exact hcurrent.tail (htargets current other hnew)

theorem retryFromNode_eq_ok (h : retryFromNode env now nodeId st = .ok st') :
    (st.run.status ≠ .cancelled ∧ st.run.status ≠ .succeeded) ∧
      ∃ id row, st.nodes.lastRow nodeId = some (id, row) ∧ row.status = .failed ∧
        st' = advance env now
          { st with
            nodes := (resetLoop env.graph nodeId
              (st.nodes.modify id resetFailedToReady)).1.2
            run := st.run.reopen } := by
  unfold retryFromNode at h
  cases hcheck : checkRetry st.run with
  | error exc =>
    rw [hcheck] at h
    exact absurd h (by simp [bind, Except.bind])
  | ok u =>
    rw [hcheck] at h
    simp only [bind, Except.bind] at h
    refine ⟨checkRetry_eq_ok hcheck, ?_⟩
    split at h
    · simp at h
    · rename_i id row hlast
      split_ifs at h with hsucceeded hfailed
      exact ⟨id, row, hlast, by simpa using hfailed, (Except.ok.inj h).symm⟩

theorem retryFromNode_steps (h : retryFromNode env now nodeId st = .ok st') :
    ∃ t t', QuietStep env.graph st.nodes t ∧ ReflTransGen (ResetStep env.graph nodeId) t t' ∧
      ReflTransGen (QuietStep env.graph) t' st'.nodes := by
  obtain ⟨-, id, row, hlast, hfailed, rfl⟩ := retryFromNode_eq_ok h
  have hfind := (NodeTable.lastRow_eq_some hlast).1
  refine ⟨_, _, quietStep_modify _ id resetFailedToReady fun current hcurrent ↦ ?_,
    resetLoop_steps env.graph nodeId _, advance_steps
      { st with
        nodes := (resetLoop env.graph nodeId (st.nodes.modify id resetFailedToReady)).1.2
        run := st.run.reopen }⟩
  rw [hfind] at hcurrent
  rw [← Option.some.inj hcurrent]
  exact resetFailedToReady_continues hfailed

/-- The operation resets descendants. -/
def Op.isRetryFrom : Op → Bool
  | .retryFromNode _ => true
  | _ => false

/-- Every operation but `retry_from_node` is a run of quiet steps, interrupted when it finishes a
row. -/
theorem Op.apply_steps (hop : ¬ op.isRetryFrom)
    (h : op.apply env now st = .ok st') : RowEffect env now st (op.handOff env now st) st' := by
  cases op with
  | advance =>
    rw [← Except.ok.inj h]
    exact advance_steps st
  | execute args token worker draw => exact (executeClaimedNodeRun_effect h).rowEffect
  | resume token outcome decision advances =>
    rw [Op.apply] at h
    exact (resumeWaitingNode_effect h).rowEffect
  | resolveEvent eventKey payload =>
    obtain ⟨⟨_, waits⟩, -, rfl⟩ := resolveEvent_eq_ok h
    exact .refl
  | resumeRun eventKey decision advances =>
    rw [Op.apply] at h
    obtain ⟨token, waits, hresolved, hresume⟩ := resumeRun_eq_ok h
    have heffect := (resumeWaitingNode_effect hresume).rowEffect
    rw [show Op.handOff env now (.resumeRun eventKey decision advances) st =
      tokenHandOff env now token "received" (eventDecision decision) { st with waits := waits } by
        simp only [Op.handOff, hresolved]]
    exact heffect.of_nodes rfl
  | recover limit draw =>
    rw [← Except.ok.inj h]
    exact recoverStale_steps limit draw st
  | wake limit =>
    rw [← Except.ok.inj h]
    exact .refl
  | cancel =>
    show ReflTransGen (QuietStep env.graph) st.nodes st'.nodes
    rcases cancelRun_eq_ok h with rfl | ⟨-, -, hnodes, -⟩
    · exact .refl
    · rw [hnodes]
      exact .single (.write _ fun _ row _ ↦ cancel_continues row)
  | retryNode nodeId =>
    obtain ⟨-, id, row, hfind, hfailed, rfl⟩ := retryNode_eq_ok h
    refine ReflTransGen.trans (.single (quietStep_modify _ _ _ fun current hcurrent ↦ ?_))
      (advance_steps
        { st with nodes := st.nodes.modify id resetFailedToReady, run := st.run.reopen })
    rw [hfind] at hcurrent
    rw [← Option.some.inj hcurrent]
    exact resetFailedToReady_continues hfailed
  | retryFromNode nodeId => exact absurd rfl hop

/-- A resume that hands off a row does not raise. -/
theorem resumeWaitingNode_of_handOff {outcome : String} (advances : Bool)
    (hop : tokenHandOff env now token outcome decision st = some h) :
    ∃ st', resumeWaitingNode env now token outcome decision advances st = .ok st' := by
  unfold tokenHandOff at hop
  unfold resumeWaitingNode
  dsimp only at hop ⊢
  cases hentry : st.nodes.byResumeToken token with
  | none =>
    rw [hentry] at hop
    simp at hop
  | some entry =>
    simp only [hentry] at hop
    split_ifs at hop with hwaiting
    rw [if_neg (not_not.mpr hwaiting.1)]
    simp only [hwaiting.2, reduceCtorEq, false_and, if_false, ne_eq, not_true_eq_false, resumeRow]
    unfold resumeHandOff at hop
    dsimp only at hop
    obtain ⟨_, hdecided⟩ := decideRow_decided env now (pyLower (pyStrip outcome))
      (resumedOutput entry.2 (pyLower (pyStrip outcome)) decision
        (continuesAfterTimeout env.render (pyLower (pyStrip outcome)) decision))
      (decide (pyLower (pyStrip outcome) ∈ successOutcomes ∨
        continuesAfterTimeout env.render (pyLower (pyStrip outcome)) decision = true))
      (NodeTable.find_of_byResumeToken hentry) hwaiting.2
    rw [hdecided.waits]
    cases hmarked : markResumed now token (pyLower (pyStrip outcome)) decision entry.2 st.waits with
    | error exc =>
      rw [hmarked] at hop
      simp at hop
    | ok waits => exact ⟨_, rfl⟩

/-- An operation that hands off a row does not raise. -/
theorem Op.apply_of_handOff
    (hop : op.handOff env now st = some h) : ∃ st', op.apply env now st = .ok st' := by
  cases op with
  | execute args token worker draw =>
    rw [Op.apply]
    unfold Op.handOff at hop
    unfold executeClaimedNodeRun
    dsimp only at hop
    split_ifs at hop ⊢
    cases hbegun : (st.nodes.find args.row).bind
        (beginNodeExecution env.claimLease now token worker args.taskExecutionId) with
    | none =>
      rw [hbegun] at hop
      simp at hop
    | some begun =>
      simp only [hbegun] at hop
      dsimp only
      split_ifs at hop ⊢
      cases hnode : env.graph.node? args.row.nodeId with
      | none =>
        rw [hnode] at hop
        simp at hop
      | some graphNode =>
        simp only [hnode] at hop
        dsimp only
        cases hsettle : settleReadyNode env now args graphNode
            { state := { st with nodes := st.nodes.put args.row begun }
              nodeOutputs := asDict (st.run.contextSnapshot.get "node_outputs") }
            (asDict (st.run.contextSnapshot.get "initial_inputs")) with
        | error exc =>
          rw [hsettle] at hop
          exact absurd hop (by simp [settledHandOff])
        | ok settled =>
          rw [executeReadyNode, hsettle]
          exact ⟨_, rfl⟩
  | resume token outcome decision advances =>
    rw [Op.apply]
    rw [Op.handOff] at hop
    exact resumeWaitingNode_of_handOff advances hop
  | resumeRun eventKey decision advances =>
    rw [Op.apply, Workflows.resumeRun]
    rw [Op.handOff] at hop
    cases hresolved : resolveWaitByEventKey now eventKey decision st.waits with
    | error exc =>
      rw [hresolved] at hop
      simp at hop
    | ok resolved =>
      rw [hresolved] at hop
      obtain ⟨_ | token, waits⟩ := resolved
      · simp at hop
      · exact resumeWaitingNode_of_handOff advances hop
  | _ => exact absurd hop (by simp [Op.handOff])

/-- What an operation hands off has been finished by it. -/
theorem Op.handsOff
    (hop : op.handOff env now st = some h) : ∃ row row', HandsOff env.graph st h row row' := by
  obtain ⟨st', happly⟩ := Op.apply_of_handOff hop
  have hretry : ¬ op.isRetryFrom := by
    cases op with
    | retryFromNode nodeId => exact absurd hop (by simp [Op.handOff])
    | _ => simp [Op.isRetryFrom]
  have heffect := Op.apply_steps hretry happly
  rw [hop] at heffect
  exact heffect.1

end ContentGenerator.Workflows
