import ContentGenerator.Workflows.Timeouts

/-!
# When a delay ends

A delay that waits until `wakeAt` is woken by the fast wake that `persist_waiting_node` sends with a countdown
and by the message of the scanner once `wakeAt` is due. `resume_waiting_node` looks at neither clock nor
`wakeAt`, so a delay ends when a message is delivered. `delay_kept_iff` says exactly for which pauses no message
can end the delay early: the countdown loses nothing to the truncation to whole seconds, and no message of an
earlier pause under the same resume token is still in flight.

The runs are those in which the row goes on waiting (`StaysWaiting`). One step is `KeepsWake`: what it can add
to the waits and the messages under a token.
-/

namespace ContentGenerator.Workflows

open Lib Relation List Option Prod

variable {args : ExecuteArgs} {graphNode : GraphNode} {row : NodeRun} {settled : Executed × Option Finish}
  {st : EngineState} {env : EngineEnv} {now : Time}

/-! ### The messages of an execution -/

/-- The waits and resume messages that an execution has created: none, or those of its pause. -/
def CreatedByPause (env : EngineEnv) (now : Time) (id : RowId) (waitId : ℕ) (nodes : NodeTable)
    (created : List Wait) (woken : List Envelope) : Prop :=
  (created = [] ∧ woken = []) ∨ ∃ paused, nodes.find id = some paused ∧ paused.status = .waiting ∧
    persistWaitingNode env.render env.parseResumeAt env.isoFormat now id paused waitId
      paused.outputJson paused.waitingReason = (created, woken)

/-- Writing a verdict creates nothing unless the row pauses. -/
theorem recordOutcome_creates (env : EngineEnv) (now : Time) (draw : ℚ) {id : RowId} (attempt : NodeRun)
    (policy : RetryPolicyDefaults) {before : Executed} (hrow : (before.state.nodes.find id).isSome)
    (verdict : Verdict) :
    ∃ created woken,
      let settled := recordOutcome env now draw id attempt policy before verdict
      settled.1.state.waits = before.state.waits ++ created ∧
        settled.1.state.outbox = before.state.outbox ++ woken ∧
        CreatedByPause env now id before.state.waits.length settled.1.state.nodes created woken := by
  have hnothing : ∀ settled : Executed × Option Finish,
      settled.1.state.waits = before.state.waits → settled.1.state.outbox = before.state.outbox →
      ∃ created woken, settled.1.state.waits = before.state.waits ++ created ∧
        settled.1.state.outbox = before.state.outbox ++ woken ∧
        CreatedByPause env now id before.state.waits.length settled.1.state.nodes created woken := by
    intro settled hwaits houtbox
    exact ⟨[], [], by rw [hwaits, append_nil], by rw [houtbox, append_nil],
      .inl ⟨rfl, rfl⟩⟩
  cases verdict with
  | failure error errorClass => exact hnothing _ rfl rfl
  | result result output =>
    obtain ⟨status, raw, error, reason⟩ := result
    cases status with
    | succeeded | skipped | failed => exact hnothing _ rfl rfl
    | waiting =>
      obtain ⟨old, hold⟩ := isSome_iff_exists.mp hrow
      exact ⟨_, _, rfl, rfl, .inr ⟨attempt.pause reason before.state.nextToken output,
        NodeTable.find_put_self _ _ hold, rfl, rfl⟩⟩

theorem settleReadyNode_creates {before : Executed}
    {initialInputs : JsonObject}
    (h : settleReadyNode env now args graphNode before initialInputs = .ok settled) :
    ∃ created woken, settled.1.state.waits = before.state.waits ++ created ∧
      settled.1.state.outbox = before.state.outbox ++ woken ∧
      CreatedByPause env now args.row before.state.waits.length settled.1.state.nodes created woken := by
  unfold settleReadyNode at h
  split at h
  · cases h
    exact ⟨[], [], by rw [append_nil], by rw [append_nil], .inl ⟨rfl, rfl⟩⟩
  · rename_i row hrow
    split_ifs at h with hover
    · cases h
      exact ⟨[], [], by rw [append_nil], by rw [append_nil], .inl ⟨rfl, rfl⟩⟩
    · simp only [bind, Except.bind] at h
      split at h
      · simp at h
      · rename_i prepared _
        split at h
        · simp at h
        · split at h
          · simp at h
          · rename_i verdict _
            simp only [pure, Except.pure, Except.ok.injEq] at h
            rw [← h]
            have hput : ((before.state.nodes.put args.row
                (row.beginAttempt now prepared args.taskExecutionId before.state.nextToken)).find
                  args.row).isSome := by
              rw [NodeTable.find_put_self _ _ hrow]
              rfl
            exact recordOutcome_creates env now args.draw _ _ hput verdict

theorem handOn_frame (env : EngineEnv) (now : Time) (nodeType : String)
    (settled : Executed × Option Finish) :
    (handOn env now nodeType settled).state.waits = settled.1.state.waits ∧
      (handOn env now nodeType settled).state.outbox = settled.1.state.outbox ∧
      (handOn env now nodeType settled).state.run = settled.1.state.run := by
  unfold handOn
  split <;> exact ⟨rfl, rfl, rfl⟩

/-- The release of the claim leaves the pause of a row as it was. -/
theorem Ran.find_followUp {begun row' : NodeRun}
    {prepared : Prepared}
    (h : Ran env now args st row begun row' graphNode prepared settled) (hwaiting : row'.status = .waiting)
    (token : ℕ) (draw : ℚ) :
    (followUp env now draw args.row
        (completeExecution env now token args.row (handOn env now graphNode.type settled))).nodes.find
      args.row = some (completeNode (some token) row') := by
  have hbefore : (handOn env now graphNode.type settled).state.nodes.find args.row = some row' :=
    h.find_handOn
  have hkept : row'.honourCancellation (handOn env now graphNode.type settled).state.run = row' := by
    refine honourCancellation_eq_self ?_ ?_
    · rw [(handOn_frame env now graphNode.type settled).2.2]
      exact h.run_not_cancelled
    · rw [h.settled.cancellation, h.begun_cancellation]
  have hcomplete := completeNode_samePause (some token) row'
  have hkeeps : KeepsPauses (fun _ ↦ False)
      (completeExecution env now token args.row (handOn env now graphNode.type settled))
      (followUp env now draw args.row _) := followUp_keepsPauses draw args.row _
  refine hkeeps.nodes.find_of_kept ?_ ?_ not_false
  · show ((handOn env now graphNode.type settled).state.nodes.modify args.row _).find args.row = _
    rw [KeyedTable.find_modify, if_pos rfl, hbefore, map_some, hkept]
  · rw [hcomplete.status, hwaiting]
    decide

/-- The rest of an execution creates nothing more. -/
theorem Ran.creates {begun row' : NodeRun}
    {prepared : Prepared}
    (h : Ran env now args st row begun row' graphNode prepared settled) (token : ℕ) (draw : ℚ)
    {created : List Wait} {woken : List Envelope}
    (hwaits : settled.1.state.waits = st.waits ++ created)
    (houtbox : settled.1.state.outbox = st.outbox ++ woken)
    (hcreated : CreatedByPause env now args.row st.waits.length settled.1.state.nodes created woken) :
    let st' := followUp env now draw args.row
      (completeExecution env now token args.row (handOn env now graphNode.type settled))
    ∃ quiet, st'.waits = st.waits ++ created ∧ st'.outbox = st.outbox ++ (woken ++ quiet) ∧
      (∀ envelope ∈ quiet, ∀ token outcome decision,
        envelope.message ≠ .resume token outcome decision) ∧
      CreatedByPause env now args.row st.waits.length st'.nodes created woken := by
  intro st'
  obtain ⟨hsameWaits, hsameOutbox, -⟩ := handOn_frame env now graphNode.type settled
  have hkeeps : KeepsPauses (fun _ ↦ False)
      (completeExecution env now token args.row (handOn env now graphNode.type settled)) st' :=
    followUp_keepsPauses draw args.row _
  obtain ⟨quiet, hsent, hquiet⟩ := hkeeps.outbox
  refine ⟨quiet, ?_, ?_, hquiet, ?_⟩
  · rw [hkeeps.waits, ← hwaits, ← hsameWaits]
    rfl
  · rw [hsent, ← append_assoc, ← houtbox, ← hsameOutbox]
    rfl
  · rcases hcreated with hnone | ⟨paused, hpaused, hwaiting, hpersist⟩
    · exact .inl hnone
    · obtain rfl := mem_unique h.find_settled hpaused
      have hcomplete := completeNode_samePause (some token) row'
      refine .inr ⟨completeNode (some token) row', h.find_followUp hwaiting token draw,
        hcomplete.status.trans hwaiting, ?_⟩
      rw [hcomplete.outputJson, hcomplete.waitingReason,
        persistWaitingNode_congr hcomplete.nodeType hcomplete.resumeToken, hpersist]

/-- What an execution that returned has created. -/
theorem executeClaimedNodeRun_creates {token : ℕ} {worker : Option String}
    {draw : ℚ} {st' : EngineState}
    (h : executeClaimedNodeRun env now args token worker draw st = .ok st') :
    ∃ created woken quiet, st'.waits = st.waits ++ created ∧
      st'.outbox = st.outbox ++ (woken ++ quiet) ∧
      (∀ envelope ∈ quiet, ∀ token outcome decision,
        envelope.message ≠ .resume token outcome decision) ∧
      CreatedByPause env now args.row st.waits.length st'.nodes created woken := by
  have heffect := executeClaimedNodeRun_effect h
  generalize Op.handOff env now (.execute args token worker draw) st = handOff at heffect
  cases heffect with
  | aborted | rejected | missing =>
    exact ⟨[], [], [], (append_nil _).symm, (append_nil _).symm, by simp, .inl ⟨rfl, rfl⟩⟩
  | ran row begun row' graphNode prepared settled hran =>
    obtain ⟨created, woken, hwaits, houtbox, hcreated⟩ := settleReadyNode_creates hran.settle
    obtain ⟨quiet, hall⟩ := hran.creates token draw hwaits houtbox hcreated
    exact ⟨created, woken, quiet, hall⟩

theorem persistWaitingNode_token {id : RowId} {waitId : ℕ} {output : JsonObject}
    {reason : Option String} {created : List Wait} {woken : List Envelope}
    (h : persistWaitingNode env.render env.parseResumeAt env.isoFormat now id row waitId output reason =
      (created, woken)) :
    (∀ wait ∈ created, row.resumeToken = some wait.resumeToken) ∧
      ∀ envelope ∈ woken, ∀ token outcome decision,
        envelope.message = .resume token outcome decision → row.resumeToken = some token := by
  have hcreated := congrArg fst h
  have hwoken := congrArg snd h
  dsimp only at hcreated hwoken
  rw [← hcreated, ← hwoken]
  cases htoken : row.resumeToken with
  | none =>
    simp [persistWaitingNode, htoken]
  | some token =>
    refine ⟨fun wait hmem ↦ ?_, fun envelope hmem other outcome decision hmessage ↦ ?_⟩
    · exact congrArg some ((persistWaitingNode_waits now env.render env.parseResumeAt env.isoFormat id
        htoken waitId output reason).2.1 wait hmem).2.2.1.symm
    · unfold persistWaitingNode at hmem
      rw [htoken] at hmem
      dsimp only at hmem
      by_cases hdelay : row.nodeType = "delay" ∨ reason = some "delay_until"
      · rw [if_pos hdelay, mem_singleton] at hmem
        rw [hmem] at hmessage
        exact congrArg some (Message.resume.inj hmessage).1
      rw [if_neg hdelay] at hmem
      by_cases hevent : row.nodeType = "wait" ∨ reason = some "event_pending"
      · rw [if_pos hevent, mem_toList, map_eq_some_iff] at hmem
        obtain ⟨wakeAt, -, rfl⟩ := hmem
        exact congrArg some (Message.resume.inj hmessage).1
      rw [if_neg hevent] at hmem
      by_cases happroval : row.nodeType = "approval" ∨ reason = some "approval_pending"
      · rw [if_pos happroval, mem_singleton] at hmem
        rw [hmem] at hmessage
        exact congrArg some (Message.resume.inj hmessage).1
      · rw [if_neg happroval] at hmem
        simp at hmem

/-! ### One step of a waiting row -/

/-- What an operation can do to the pause of a row that goes on waiting: no wait is added under its
token, and a message under it was in flight before or is the scanner's, for a wait that was due. -/
structure KeepsWake (id : RowId) (token : ℕ) (now : Time) (st st' : EngineState) : Prop where
  row : ∀ row, st'.nodes.find id = some row → row.status = .waiting → st.nodes.find id = some row
  waits : ∀ wait ∈ pendingUnder token st'.waits, wait ∈ pendingUnder token st.waits
  messages : ∀ envelope ∈ st'.outbox, ∀ outcome decision,
    envelope.message = .resume token outcome decision → envelope ∈ st.outbox ∨
      (envelope.earliest = now ∧ ∃ wait ∈ pendingUnder token st.waits, wait.wakeAt.any (· ≤ now))

section KeepsWake

variable {id : RowId} {token : ℕ} {st' : EngineState}

theorem KeepsWake.trans {st'' : EngineState} (h : KeepsWake id token now st st')
    (h' : KeepsWake id token now st' st'') : KeepsWake id token now st st'' where
  row := fun row hrow hwaiting ↦ h.row row (h'.row row hrow hwaiting) hwaiting
  waits := fun wait hmem ↦ h.waits wait (h'.waits wait hmem)
  messages := by
    intro envelope hmem outcome decision hmessage
    rcases h'.messages envelope hmem outcome decision hmessage with hold | ⟨hnow, wait, hwait, hdue⟩
    · exact h.messages envelope hold outcome decision hmessage
    · exact .inr ⟨hnow, wait, h.waits wait hwait, hdue⟩

theorem SettlesWaits.mem_pendingUnder {waits waits' : List Wait} (h : SettlesWaits waits waits')
    {wait : Wait} (hmem : wait ∈ pendingUnder token waits') : wait ∈ pendingUnder token waits := by
  obtain ⟨hwait, htoken, hpending⟩ := Workflows.mem_pendingUnder.mp hmem
  exact Workflows.mem_pendingUnder.mpr ⟨h.mem_of_pending hwait hpending, htoken, hpending⟩

/-- An operation that settles waits and sends no resume message. -/
theorem KeepsWake.of_settles (released : RowId → Prop) (hnodes : Unpauses released st.nodes st'.nodes)
    (hwaits : SettlesWaits st.waits st'.waits)
    (houtbox : ∃ sent : List Envelope, st'.outbox = st.outbox ++ sent ∧ ∀ envelope ∈ sent,
      ∀ token outcome decision, envelope.message ≠ .resume token outcome decision) :
    KeepsWake id token now st st' where
  row := fun _ hrow hwaiting ↦ hnodes.find_of_waiting hrow hwaiting
  waits := fun _ hmem ↦ hwaits.mem_pendingUnder hmem
  messages := by
    intro envelope hmem outcome decision hmessage
    obtain ⟨sent, hsent, hquiet⟩ := houtbox
    rw [hsent] at hmem
    rcases mem_append.mp hmem with hold | hnew
    · exact .inl hold
    · exact absurd hmessage (hquiet envelope hnew token outcome decision)

theorem KeepsWake.of_keepsPauses (released : RowId → Prop) (h : KeepsPauses released st st') :
    KeepsWake id token now st st' :=
  .of_settles released h.nodes (h.waits ▸ .refl _) h.outbox

theorem KeepsWake.refl (st : EngineState) : KeepsWake id token now st st :=
  .of_keepsPauses (fun _ ↦ False) (.refl st)

/-- Nothing is sent and no row written. -/
theorem keepsWake_settleWaits {waits : List Wait} (h : SettlesWaits st.waits waits) :
    KeepsWake id token now st { st with waits := waits } :=
  .of_settles (fun _ ↦ False) (.refl _ _) h
    ⟨[], by rw [append_nil], by simp⟩

theorem keepsWake_resume {other : ℕ} {outcome : String} {decision : JsonObject}
    {advances : Bool}
    (h : resumeWaitingNode env now other outcome decision advances st = .ok st') :
    KeepsWake id token now st st' := by
  obtain ⟨-, entry, hentry, ⟨-, rfl | ⟨-, rfl⟩⟩ | ⟨-, hrow⟩⟩ := resumeWaitingNode_eq_ok h
  · exact .refl _
  · exact .of_keepsPauses (fun _ ↦ False) (advance_keepsPauses st)
  · obtain ⟨waits, hmarked, hresumes⟩ := resumeRow_eq_ok (NodeTable.find_of_byResumeToken hentry) hrow
    exact .of_settles _ hresumes.nodes (hresumes.waits ▸ (markResumed_spec hmarked).1) hresumes.outbox

/-- The scanner sends at once, and only for waits that are due. -/
theorem keepsWake_wakeDueWaits (limit : ℕ) (st : EngineState) :
    KeepsWake id token now st (wakeDueWaits now limit st) where
  row := fun _ hrow _ ↦ hrow
  waits := fun _ hmem ↦ (wakeDueWaits_settles limit st).mem_pendingUnder hmem
  messages := by
    intro envelope hmem outcome decision hmessage
    rcases mem_append.mp hmem with hold | hnew
    · exact .inl hold
    · obtain ⟨wait, hdue, rfl⟩ := List.mem_map.mp hnew
      obtain ⟨rfl, -, -⟩ := Message.resume.inj hmessage
      have hsorted := mem_of_mem_take hdue
      rw [(perm_insertionSort _ _).mem_iff, mem_filter, decide_eq_true_eq] at hsorted
      obtain ⟨hwait, hpending, hwake⟩ := hsorted
      exact .inr ⟨rfl, wait, mem_pendingUnder.mpr ⟨hwait, rfl, hpending⟩, hwake⟩

/-- The execution of another row. -/
theorem WaitTokens.keepsWake_execute (h : WaitTokens env st)
    (hrow : st.nodes.find id = some row) (hwaiting : row.status = .waiting)
    (htoken : row.resumeToken = some token) {claim : ℕ} {worker : Option String}
    {draw : ℚ} (hcall : executeClaimedNodeRun env now args claim worker draw st = .ok st') :
    KeepsWake id token now st st' := by
  have hafter : WaitTokens env st' :=
    h.apply (show Op.apply env now (.execute args claim worker draw) st = .ok st' from hcall)
  rcases (executeClaimedNodeRun_effect hcall).pauses with hkeeps | ⟨old, written, between, hattempted⟩
  · exact .of_keepsPauses _ hkeeps
  have hne : id ≠ args.row := by
    rintro rfl
    have hclaimed := hattempted.claimed
    rw [← mem_unique hrow hattempted.find, hwaiting] at hclaimed
    exact absurd hclaimed (by decide)
  have hkept : st'.nodes.find id = some row := by
    refine hattempted.rest.nodes.find_of_kept ?_ (by rw [hwaiting]; decide) fun hreleased ↦ hne hreleased.1
    rw [hattempted.nodes, NodeTable.find_put_of_ne _ _ hne, hrow]
  obtain ⟨created, woken, quiet, hwaits, houtbox, hquiet, hcreated⟩ := executeClaimedNodeRun_creates hcall
  -- what is created is under the token of the executed row, which is another one
  have hother : (∀ wait ∈ created, wait.resumeToken ≠ token) ∧
      ∀ envelope ∈ woken, ∀ outcome decision, envelope.message ≠ .resume token outcome decision := by
    rcases hcreated with ⟨rfl, rfl⟩ | ⟨paused, hpaused, -, hpersist⟩
    · exact ⟨by simp, by simp⟩
    · obtain ⟨hwaitTokens, hwokenTokens⟩ := persistWaitingNode_token hpersist
      refine ⟨fun wait hmem hsame ↦ hne ?_, fun envelope hmem outcome decision hmessage ↦ hne ?_⟩
      · exact hafter.distinct id args.row row paused token hkept hpaused htoken
          (hsame ▸ hwaitTokens wait hmem)
      · exact hafter.distinct id args.row row paused token hkept hpaused htoken
          (hwokenTokens envelope hmem token outcome decision hmessage)
  constructor
  · intro row' hrow' _
    rw [hrow, ← hkept, hrow']
  · intro wait hmem
    rw [hwaits, pendingUnder_append] at hmem
    rcases mem_append.mp hmem with hold | hnew
    · exact hold
    · obtain ⟨hwait, hsame, -⟩ := mem_pendingUnder.mp hnew
      exact absurd hsame (hother.1 wait hwait)
  · intro envelope hmem outcome decision hmessage
    rw [houtbox] at hmem
    rcases mem_append.mp hmem with hold | hnew
    · exact .inl hold
    · rcases mem_append.mp hnew with hwoken | hsent
      · exact absurd hmessage (hother.2 envelope hwoken outcome decision)
      · exact absurd hmessage (hquiet envelope hsent token outcome decision)

/-- Every operation on a state in which the row waits. -/
theorem WaitTokens.keepsWake (h : WaitTokens env st)
    (hrow : st.nodes.find id = some row) (hwaiting : row.status = .waiting)
    (htoken : row.resumeToken = some token) {op : Op} (hop : op.apply env now st = .ok st') :
    KeepsWake id token now st st' := by
  cases op with
  | advance =>
    rw [← Except.ok.inj hop]
    exact .of_keepsPauses (fun _ ↦ False) (advance_keepsPauses st)
  | execute args claim worker draw =>
    rw [Op.apply] at hop
    exact h.keepsWake_execute hrow hwaiting htoken hop
  | resume other outcome decision advances =>
    rw [Op.apply] at hop
    exact keepsWake_resume hop
  | resolveEvent eventKey payload =>
    obtain ⟨resolved, hresolved, rfl⟩ := resolveEvent_eq_ok hop
    exact keepsWake_settleWaits (resolveWaitByEventKey_spec hresolved).1
  | resumeRun eventKey decision advances =>
    rw [Op.apply] at hop
    obtain ⟨other, waits, hresolved, hresume⟩ := resumeRun_eq_ok hop
    exact (keepsWake_settleWaits (resolveWaitByEventKey_spec hresolved).1).trans (keepsWake_resume hresume)
  | recover limit draw =>
    rw [← Except.ok.inj hop]
    exact .of_keepsPauses _ (recoverStale_keepsPauses limit draw st)
  | wake limit =>
    rw [← Except.ok.inj hop]
    exact keepsWake_wakeDueWaits limit st
  | cancel =>
    rw [Op.apply] at hop
    rcases cancelRun_waits hop with rfl | ⟨hsettles, -, hnodes, houtbox, -⟩
    · exact .refl _
    · exact .of_settles _ (hnodes ▸ cancel_unpauses now st.nodes) hsettles
        ⟨[], by rw [houtbox, append_nil], by simp⟩
  | retryNode nodeId =>
    rw [Op.apply] at hop
    obtain ⟨-, failed, -, -, -, rfl⟩ := retryNode_eq_ok hop
    exact KeepsWake.trans
      (.of_keepsPauses _ (.of_nodes st.run.reopen (resetFailedToReady_unpauses failed st.nodes)))
      (.of_keepsPauses (fun _ ↦ False) (advance_keepsPauses _))
  | retryFromNode nodeId =>
    rw [Op.apply] at hop
    obtain ⟨-, failed, -, -, -, rfl⟩ := retryFromNode_eq_ok hop
    have hresets := (resetSteps_unpauses (resetLoop_steps env.graph nodeId
      (st.nodes.modify failed NodeRun.resetFailedToReady))).1
    have hfirst := (resetFailedToReady_unpauses failed st.nodes).mono fun _ _ ↦ trivial
    exact KeepsWake.trans (.of_keepsPauses _ (.of_nodes st.run.reopen (hfirst.trans hresets)))
      (.of_keepsPauses (fun _ ↦ False) (advance_keepsPauses _))

end KeepsWake

/-! ### Runs after a pause -/

/-- A message that resumes a token with the outcome of a delay. -/
def Envelope.Elapses (token : ℕ) (envelope : Envelope) : Prop :=
  ∃ decision, envelope.message = .resume token "elapsed" decision

/-- One transaction of a run in which the row goes on waiting. The clock does not go back. -/
def StaysWaiting (env : EngineEnv) (id : RowId) (a b : Time × EngineState) : Prop :=
  a.1 ≤ b.1 ∧ Step env (fun now _ _ ↦ now = b.1) a.2 b.2 ∧
    ∃ row, b.2.nodes.find id = some row ∧ row.status = .waiting

/-- The delivery of a message in flight, with the outcome of a delay, makes the row `SUCCEEDED`. -/
def ElapsesAt (env : EngineEnv) (id : RowId) (now : Time) (st : EngineState) : Prop :=
  ∃ (i : Fin st.outbox.length) (token : ℕ) (decision : JsonObject),
    (st.outbox.get i).earliest ≤ now ∧
      (st.outbox.get i).message = .resume token "elapsed" decision ∧
      ∃ row, ((Op.resume token "elapsed" decision true).run env now
          { st with outbox := st.outbox.eraseIdx i }).nodes.find id = some row ∧
        row.status = .succeeded

/-- In every run in which the row goes on waiting, a delay elapses at `wakeAt` or later. -/
def NeverCutShort (env : EngineEnv) (id : RowId) (wakeAt : Time) (start : Time × EngineState) : Prop :=
  ∀ last now, ReflTransGen (StaysWaiting env id) start last → last.1 ≤ now →
    ElapsesAt env id now last.2 → wakeAt ≤ now

/-- A delay node has entered `WAITING` in a transaction at `now`, with the wait under `token` due at
`wakeAt`. `schedule_fast_wake` has read the clock once more, at `sent`: the message of the transaction
is the one that reading gives. -/
structure DelayPause (env : EngineEnv) (now sent : Time) (args : ExecuteArgs) (token : ℕ)
    (wakeAt : Time) (st paused : EngineState) : Prop where
  clock : now ≤ sent
  executed : ∃ claim worker draw after,
    executeClaimedNodeRun env now args claim worker draw st = .ok after ∧
      paused =
        { after with
          outbox := after.outbox.set st.outbox.length (scheduleFastWake sent token wakeAt "elapsed" []) }
  entered : ∀ row, st.nodes.find args.row = some row → row.status ≠ .waiting
  row : ∃ row, paused.nodes.find args.row = some row ∧ row.status = .waiting ∧
    row.nodeType = "delay" ∧ row.resumeToken = some token
  wait : ∃ wait ∈ pendingUnder token paused.waits, wait.wakeAt = some wakeAt

section Pause

variable {sent wakeAt : Time} {token : ℕ} {paused : EngineState}

theorem DelayPause.waitTokens (h : DelayPause env now sent args token wakeAt st paused)
    (hst : WaitTokens env st) : WaitTokens env paused := by
  obtain ⟨claim, worker, draw, after, hcall, rfl⟩ := h.executed
  have hafter : WaitTokens env after :=
    hst.apply (show Op.apply env now (.execute args claim worker draw) st = .ok after from hcall)
  exact hafter.settles (.refl _) _

/-- The wait of the pause is the only one pending under the token. -/
theorem DelayPause.waits (h : DelayPause env now sent args token wakeAt st paused)
    (hst : WaitTokens env st) : ∀ wait ∈ pendingUnder token paused.waits, wait.wakeAt = some wakeAt := by
  intro wait hmem
  obtain ⟨row, hrow, -, htype, htoken⟩ := h.row
  obtain ⟨pending, hpending, hwake⟩ := h.wait
  have hsingle := (h.waitTokens hst).single args.row row token hrow (by rw [htype]; decide) htoken
  obtain ⟨only, honly⟩ := length_eq_one_iff.mp (le_antisymm hsingle (length_pos_of_mem hmem))
  rw [honly, mem_singleton] at hmem hpending
  rw [hmem, ← hpending, hwake]

theorem DelayPause.outbox (h : DelayPause env now sent args token wakeAt st paused) :
    ∃ quiet, paused.outbox =
        st.outbox ++ (scheduleFastWake sent token wakeAt "elapsed" [] :: quiet) ∧
      ∀ envelope ∈ quiet, ∀ token outcome decision,
        envelope.message ≠ .resume token outcome decision := by
  obtain ⟨row, hrow, hwaiting, htype, htoken⟩ := h.row
  obtain ⟨claim, worker, draw, after, hcall, rfl⟩ := h.executed
  obtain ⟨created, woken, quiet, hwaits, houtbox, hquiet, ⟨rfl, -⟩ | ⟨written, hwritten, -, hpersist⟩⟩ :=
    executeClaimedNodeRun_creates hcall
  · -- nothing created: the row cannot have started to wait
    rcases (executeClaimedNodeRun_effect hcall).pauses with hkeeps | ⟨old, written, between, hattempted⟩
    · exact absurd hwaiting (h.entered row (hkeeps.nodes.find_of_waiting hrow hwaiting))
    · have hbetween := hattempted.rest.nodes.find_of_waiting hrow hwaiting
      rw [hattempted.nodes, NodeTable.find_put_self _ _ hattempted.find] at hbetween
      cases hbetween
      obtain ⟨created, hcreated, -, -, hnonempty⟩ := hattempted.pause.waits
      refine absurd ?_ (hnonempty hwaiting (by rw [htype]; decide))
      rw [← hattempted.rest.waits, hwaits] at hcreated
      simpa using hcreated
  · obtain rfl := mem_unique hrow hwritten
    have hwoken := congrArg snd hpersist
    rw [persistWaitingNode, htoken] at hwoken
    dsimp only at hwoken
    rw [if_pos (.inl htype)] at hwoken
    refine ⟨quiet, ?_, hquiet⟩
    rw [houtbox, ← hwoken, set_append_right _ _ le_rfl, Nat.sub_self]
    rfl

end Pause

/-! ### When a delay is kept -/

/-- The pause while the row goes on waiting, when no message can end it early. -/
structure Undisturbed (env : EngineEnv) (id : RowId) (token : ℕ) (wakeAt : Time) (st : EngineState) :
    Prop where
  tokens : WaitTokens env st
  row : ∃ row, st.nodes.find id = some row ∧ row.status = .waiting ∧ row.resumeToken = some token
  waits : ∀ wait ∈ pendingUnder token st.waits, wait.wakeAt = some wakeAt
  messages : ∀ envelope ∈ st.outbox, envelope.Elapses token → wakeAt ≤ envelope.earliest

section Kept

variable {id : RowId} {token : ℕ} {wakeAt : Time}

/-- Taking a message from the queue. -/
theorem Undisturbed.erase (h : Undisturbed env id token wakeAt st) (i : ℕ) :
    Undisturbed env id token wakeAt { st with outbox := st.outbox.eraseIdx i } where
  tokens := h.tokens.settles (.refl _) _
  row := h.row
  waits := h.waits
  messages := fun envelope hmem ↦ h.messages envelope (mem_of_mem_eraseIdx hmem)

/-- An operation under which the row goes on waiting sends no elapsed message before the wait is due. -/
theorem Undisturbed.run (h : Undisturbed env id token wakeAt st) (op : Op)
    (hwaits : ∃ row, (op.run env now st).nodes.find id = some row ∧ row.status = .waiting) :
    Undisturbed env id token wakeAt (op.run env now st) := by
  unfold Op.run at hwaits ⊢
  split at hwaits
  · rename_i st' hop
    obtain ⟨row, hrow, hwaiting, htoken⟩ := h.row
    have hkeeps : KeepsWake id token now st st' := h.tokens.keepsWake hrow hwaiting htoken hop
    obtain ⟨row', hrow', hwaiting'⟩ := hwaits
    have hsame := hkeeps.row row' hrow' hwaiting'
    obtain rfl := mem_unique hrow hsame
    refine ⟨h.tokens.apply hop, ⟨row, hrow', hwaiting, htoken⟩,
      fun wait hmem ↦ h.waits wait (hkeeps.waits wait hmem), ?_⟩
    rintro envelope hmem ⟨decision, hmessage⟩
    rcases hkeeps.messages envelope hmem "elapsed" decision hmessage with hold | ⟨hnow, wait, hwait, hdue⟩
    · exact h.messages envelope hold ⟨decision, hmessage⟩
    · rw [h.waits wait hwait] at hdue
      rw [hnow]
      simpa using hdue
  · exact h

theorem Undisturbed.step {a b : Time × EngineState} (h : Undisturbed env id token wakeAt a.2)
    (hstep : StaysWaiting env id a b) : Undisturbed env id token wakeAt b.2 := by
  obtain ⟨t, st⟩ := a
  obtain ⟨t', st'⟩ := b
  obtain ⟨-, hstep, hwaits⟩ := hstep
  cases hstep with
  | call now op _ hnow => exact h.run op hwaits
  | deliver now op _ i _ _ hnow => exact (h.erase i).run op hwaits

/-- The clock of a run does not go back. -/
theorem clock_le_of_staysWaiting {a b : Time × EngineState}
    (h : ReflTransGen (StaysWaiting env id) a b) : a.1 ≤ b.1 := by
  induction h with
  | refl => exact le_rfl
  | tail _ hstep ih => exact ih.trans hstep.1

/-- Only a message under its own token ends the pause of a row. -/
theorem Undisturbed.le_of_elapsesAt (h : Undisturbed env id token wakeAt st)
    (helapses : ElapsesAt env id now st) : wakeAt ≤ now := by
  obtain ⟨i, other, decision, hdue, hmessage, row', hrow', hsucceeded⟩ := helapses
  obtain ⟨row, hrow, hwaiting, htoken⟩ := h.row
  have hother : other = token := by
    by_contra hne
    have hkept : ((Op.resume other "elapsed" decision true).run env now
        { st with outbox := st.outbox.eraseIdx i }).nodes.find id = some row := by
      refine (h.erase i).tokens.find_of_not_decides now hrow hwaiting htoken rfl ?_
      simp [Op.decides, hne]
    rw [mem_unique hrow' hkept, hwaiting] at hsucceeded
    exact absurd hsucceeded (by decide)
  subst hother
  exact (h.messages _ (List.get_mem _ i) ⟨decision, hmessage⟩).trans hdue

/-- The delivery of a message under the token of a waiting row makes the row `SUCCEEDED`. -/
theorem WaitTokens.elapsesAt (h : WaitTokens env st) (hrow : st.nodes.find id = some row)
    (hwaiting : row.status = .waiting) (htoken : row.resumeToken = some token) {envelope : Envelope}
    (hmem : envelope ∈ st.outbox) (helapses : envelope.Elapses token) (hdue : envelope.earliest ≤ now) :
    ElapsesAt env id now st := by
  obtain ⟨i, rfl⟩ := List.get_of_mem hmem
  obtain ⟨decision, hmessage⟩ := helapses
  have htokens : WaitTokens env { st with outbox := st.outbox.eraseIdx i } := h.settles (.refl _) _
  have hcall : resumeWaitingNode env now token "elapsed" decision true
      { st with outbox := st.outbox.eraseIdx i } =
      resumeRow env now token (pyLower (pyStrip "elapsed")) decision true id row
        { st with outbox := st.outbox.eraseIdx i } :=
    resumeWaitingNode_of_waiting (by decide +kernel) (htokens.byResumeToken_eq hrow htoken) hwaiting
  obtain ⟨waits, hmarked⟩ := htokens.markResumed_ok now hrow htoken (pyLower (pyStrip "elapsed"))
    decision
  have hfind : ({ st with outbox := st.outbox.eraseIdx i } : EngineState).nodes.find id = some row := hrow
  obtain ⟨row', hrow', hstatus, -⟩ := resumedState_find env now (pyLower (pyStrip "elapsed")) decision
    true waits hfind
  refine ⟨i, token, decision, hdue, hmessage, row', ?_, ?_⟩
  · rw [Op.run, Op.apply, hcall, resumeRow_eq hfind, hmarked]
    exact hrow'
  · rw [hstatus, if_pos (.inl (by decide +kernel))]

end Kept

/-- A delay is never cut short exactly when it is over before the fast wake is sent, or a whole number
of seconds is left then and no elapsed message of an earlier pause of the row can be delivered before
the delay is over. The messages in flight before the pause may be any. -/
theorem delay_kept_iff {allowed : Time → Op → EngineState → Prop} {st : EngineState}
    (hst : Reachable env allowed st) (outbox : List Envelope) {sent wakeAt : Time} {args : ExecuteArgs}
    {token : ℕ} {paused : EngineState}
    (hpause : DelayPause env now sent args token wakeAt { st with outbox := outbox } paused) :
    NeverCutShort env args.row wakeAt (sent, paused) ↔
      wakeAt ≤ sent ∨ ((wakeAt - sent) % 1000000 = 0 ∧
        ∀ envelope ∈ outbox, envelope.Elapses token → wakeAt ≤ envelope.earliest) := by
  have hbefore : WaitTokens env { st with outbox := outbox } := hst.waitTokens.settles (.refl _) _
  have htokens := hpause.waitTokens hbefore
  obtain ⟨quiet, houtbox, hquiet⟩ := hpause.outbox
  obtain ⟨row, hrow, hwaiting, -, htoken⟩ := hpause.row
  constructor
  · intro hkept
    by_cases hover : wakeAt ≤ sent
    · exact .inl hover
    -- the message delivered as early as it may be ends the delay
    have hlate : ∀ envelope ∈ paused.outbox, envelope.Elapses token → wakeAt ≤ envelope.earliest := by
      intro envelope hmem helapses
      have hend : wakeAt ≤ max sent envelope.earliest :=
        hkept (sent, paused) _ .refl (le_max_left _ _)
          (htokens.elapsesAt hrow hwaiting htoken hmem helapses (le_max_right _ _))
      rcases le_max_iff.mp hend with hsent | hearliest
      · exact absurd hsent hover
      · exact hearliest
    refine .inr ⟨?_, fun envelope hmem ↦ hlate envelope ?_⟩
    · have hfast := hlate (scheduleFastWake sent token wakeAt "elapsed" [])
        (by rw [houtbox]; exact mem_append_right _ mem_cons_self) ⟨[], rfl⟩
      have hcountdown : wakeAt ≤ sent + (wakeAt - sent) / 1000000 * 1000000 := hfast
      have hsplit : wakeAt - sent = (wakeAt - sent) / 1000000 * 1000000 + (wakeAt - sent) % 1000000 :=
        (Nat.div_add_mod' _ _).symm
      unfold Time at *
      omega
    · rw [houtbox]
      exact mem_append_left _ hmem
  · rintro (hover | ⟨hwhole, hearlier⟩) last time hrun hclock helapses
    · exact (hover.trans (clock_le_of_staysWaiting hrun)).trans hclock
    · have hstart : Undisturbed env args.row token wakeAt paused := by
        refine ⟨htokens, ⟨row, hrow, hwaiting, htoken⟩, hpause.waits hbefore, ?_⟩
        rintro envelope hmem ⟨decision, hmessage⟩
        rw [houtbox] at hmem
        rcases mem_append.mp hmem with hold | hnew
        · exact hearlier envelope hold ⟨decision, hmessage⟩
        rcases mem_cons.mp hnew with rfl | hsent
        · have hsplit : wakeAt - sent =
              (wakeAt - sent) / 1000000 * 1000000 + (wakeAt - sent) % 1000000 :=
            (Nat.div_add_mod' _ _).symm
          show wakeAt ≤ sent + (wakeAt - sent) / 1000000 * 1000000
          unfold Time at *
          omega
        · exact absurd hmessage (hquiet envelope hsent token "elapsed" decision)
      have hlast : Undisturbed env args.row token wakeAt last.2 :=
        ReflTransGen.invariant (P := fun a : Time × EngineState ↦
          Undisturbed env args.row token wakeAt a.2) (fun _ _ h hstep ↦ h.step hstep) hrun hstart
      exact hlast.le_of_elapsesAt helapses

/-! ### A paused run -/

/-- The run of `delayRun` whose delay waits until a fixed time. -/
def delayUntil (wakeAt : Time) : EngineEnv :=
  { catalogueEnv delayGraph repairedGlobals with parseResumeAt := fun _ ↦ some wakeAt }

def pauseDelay : ExecuteArgs where
  row := ⟨"d", ""⟩
  outcome := .ok
    { status := .waiting
      output := [("resume_at", .str "2026-01-01T00:00:00Z"), ("scheduled", .bool true),
        ("status", .str "pending")]
      waitingReason := some "delay_until" }

def claimedDelay (wakeAt : Time) : EngineState :=
  (delayUntil wakeAt).play
    [(1, execSucceeds "t" "" 0 [("payload", .obj []), ("trigger_type", .str "manual_trigger")])]
    (startRun (delayUntil wakeAt) 0 .inline [] [])

def waitingDelay (sent wakeAt : Time) : EngineState :=
  let after := (Op.execute pauseDelay 2 none 0).run (delayUntil wakeAt) 2 (claimedDelay wakeAt)
  { after with
    outbox := after.outbox.set (claimedDelay wakeAt).outbox.length
      (scheduleFastWake sent 3 wakeAt "elapsed" []) }

theorem Op.apply_eq_ok_run {op : Op} (h : (op.apply env now st).isOk) :
    op.apply env now st = .ok (op.run env now st) := by
  unfold Op.run
  cases hop : op.apply env now st with
  | error exc =>
    rw [hop] at h
    exact absurd h (by simp [Except.isOk, Except.toBool])
  | ok st' => rfl

theorem reachable_claimedDelay (wakeAt : Time) :
    Reachable (delayUntil wakeAt) anyOp (claimedDelay wakeAt) :=
  reachable_play 0 .inline [] [] (permits_anyOp _ _ _)

/-- A pause, from the columns of its row and wait. -/
theorem delayPause_of_run {sent wakeAt : Time} {token : ℕ}
    (claim : ℕ) (hclock : now ≤ sent)
    (hok : ((Op.execute args claim none 0).apply env now st).isOk)
    (hbefore : (st.nodes.find args.row).map NodeRun.status = some .queued)
    (hafter : (((Op.execute args claim none 0).run env now st).nodes.find args.row).map
      (fun row ↦ (row.status, row.nodeType, row.resumeToken)) = some (.waiting, "delay", some token))
    (hwait : (pendingUnder token ((Op.execute args claim none 0).run env now st).waits).map Wait.wakeAt =
      [some wakeAt]) :
    let after := (Op.execute args claim none 0).run env now st
    DelayPause env now sent args token wakeAt st
      { after with
        outbox := after.outbox.set st.outbox.length (scheduleFastWake sent token wakeAt "elapsed" []) } := by
  refine ⟨hclock, ⟨claim, none, 0, _, Op.apply_eq_ok_run hok, rfl⟩, fun row hrow ↦ ?_, ?_, ?_⟩
  · rw [hrow] at hbefore
    rw [Option.some.inj hbefore]
    decide
  · obtain ⟨row, hrow, hcolumns⟩ := map_eq_some_iff.mp hafter
    obtain ⟨hwaiting, hrest⟩ := mk.inj hcolumns
    obtain ⟨htype, htoken⟩ := mk.inj hrest
    exact ⟨row, hrow, hwaiting, htype, htoken⟩
  · obtain ⟨wait, hmem, hwake⟩ := List.mem_map.mp (hwait ▸ mem_singleton_self (some wakeAt))
    exact ⟨wait, hmem, hwake⟩

/-- A delay with two whole seconds left when the fast wake is sent. -/
theorem wholeSecondDelay_kept :
    NeverCutShort (delayUntil 2000002) ⟨"d", ""⟩ 2000002 (2, waitingDelay 2 2000002) := by
  have hpause : DelayPause (delayUntil 2000002) 2 2 pauseDelay 3 2000002 (claimedDelay 2000002)
      (waitingDelay 2 2000002) :=
    delayPause_of_run 2 (by decide) (by decide +kernel) (by decide +kernel) (by decide +kernel)
      (by decide +kernel)
  refine (delay_kept_iff (reachable_claimedDelay 2000002) (claimedDelay 2000002).outbox hpause).mpr
    (.inr ⟨by decide, ?_⟩)
  -- the messages in flight are the two executions
  rintro envelope hmem ⟨decision, hmessage⟩
  have hlist : (claimedDelay 2000002).outbox.map Envelope.message =
      [.execute ⟨"t", ""⟩ 0, .execute ⟨"d", ""⟩ 2] := rfl
  have hmapped := hlist ▸ List.mem_map_of_mem (f := Envelope.message) hmem
  rw [hmessage] at hmapped
  simp at hmapped

/-- With 2.899998 seconds left, the fast wake may be delivered after two and ends the delay. -/
theorem fractional_delay_cut_short :
    Reachable (delayUntil 2900000) anyOp (claimedDelay 2900000) ∧
      DelayPause (delayUntil 2900000) 2 2 pauseDelay 3 2900000 (claimedDelay 2900000)
        (waitingDelay 2 2900000) ∧
      ¬ NeverCutShort (delayUntil 2900000) ⟨"d", ""⟩ 2900000 (2, waitingDelay 2 2900000) := by
  have hpause : DelayPause (delayUntil 2900000) 2 2 pauseDelay 3 2900000 (claimedDelay 2900000)
      (waitingDelay 2 2900000) :=
    delayPause_of_run 2 (by decide) (by decide +kernel) (by decide +kernel) (by decide +kernel)
      (by decide +kernel)
  refine ⟨reachable_claimedDelay 2900000, hpause, fun hkept ↦ ?_⟩
  obtain ⟨row, hrow, hwaiting, -, htoken⟩ := hpause.row
  have htokens := hpause.waitTokens (reachable_claimedDelay 2900000).waitTokens
  obtain ⟨quiet, houtbox, -⟩ := hpause.outbox
  have helapses : ElapsesAt (delayUntil 2900000) ⟨"d", ""⟩ 2000002 (waitingDelay 2 2900000) := by
    have hmem : scheduleFastWake 2 3 2900000 "elapsed" [] ∈ (waitingDelay 2 2900000).outbox := by
      rw [houtbox]
      exact mem_append_right _ mem_cons_self
    exact htokens.elapsesAt hrow hwaiting htoken hmem ⟨[], rfl⟩ (by decide)
  exact absurd (hkept (2, waitingDelay 2 2900000) 2000002 .refl (by decide) helapses) (by decide)

end ContentGenerator.Workflows
