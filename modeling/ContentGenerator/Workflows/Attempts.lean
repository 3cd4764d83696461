import ContentGenerator.Workflows.Outcome

/-!
# The attempts of one row

A row is claimed, executed, and recovered when its lease runs out. The attempt counter is raised in
the transaction of the execution, and a worker that crashes takes that transaction with it: recovery
then decides from a counter that does not know of the attempt. `entries` counts how often the `execute`
of the node implementation has been entered.

`AttemptRun.Bounded` is the invariant: what has been entered is counted on the row or lost in a crash,
and a row that may still be attempted has attempts left. `entries_le_maxAttempts` follows for the runs
without a crash inside `execute`.
-/

namespace ContentGenerator.Workflows

open Lib KeyedTable

variable {env : EngineEnv} {limit token : ℕ} {status : NodeStatus} {args : ExecuteArgs} {id : RowId}
  {node : GraphNode} {row row' : NodeRun} {st : EngineState} {now : Time}

/-! ### Entering the implementation -/

/-- The `try` block gets as far as the `execute` of the implementation. -/
def reachesImplementation (env : EngineEnv) (run : Run) (graphNode : GraphNode)
    (prepared : Prepared) : Bool :=
  (prepared.impl.validateInputs prepared.inputs).isOk &&
    (prepared.impl.validateConfig (resolvedConfig run graphNode)).isOk &&
    (env.maybeMockNodeResult graphNode.type prepared.inputs run.contextSnapshot).isNone &&
    prepared.impl.isExecutable

/-- `execute_claimed_node_run` enters the `execute` of the implementation. -/
def entersExecute (env : EngineEnv) (now : Time) (args : ExecuteArgs) (token : ℕ)
    (workerTaskId : Option String) (st : EngineState) : Bool :=
  if st.run.status.isTerminal then false
  else
    match (st.nodes.find args.row).bind
        (beginNodeExecution env.claimLease now token workerTaskId args.taskExecutionId) with
    | none => false
    | some begun =>
      if shouldAbortNode begun st.run then false
      else
        match env.graph.node? args.row.nodeId with
        | none => false
        | some graphNode =>
          match prepareInputs env st.run (st.nodes.put args.row begun) graphNode args.row begun
              (asDict (st.run.contextSnapshot.get "node_outputs"))
              (asDict (st.run.contextSnapshot.get "initial_inputs")) with
          | .error _ => false
          | .ok prepared =>
            (env.loadGlobals attemptNames).isOk &&
              reachesImplementation env st.run graphNode prepared

/-! ### The steps -/

/-- A step in the life of the row: it is claimed, a worker executes it, a worker crashes while it
executes it, or stale claims are recovered. -/
inductive AttemptOp
  | claim
  | execute (args : ExecuteArgs) (token : ℕ) (workerTaskId : Option String) (draw : ℚ)
  | crash (args : ExecuteArgs) (token : ℕ) (workerTaskId : Option String)
  | recover (limit : ℕ) (draw : RowId → ℚ)

/-- The state of the run, how often `execute` has been entered for the row, and how many of these
entries ended in a crash. -/
structure AttemptRun where
  state : EngineState
  entries : ℕ := 0
  crashes : ℕ := 0

/-- The step on the row `id`. A crash rolls the transaction of the worker back. -/
def AttemptOp.apply (env : EngineEnv) (id : RowId) (now : Time) (run : AttemptRun) :
    AttemptOp → AttemptRun
  | .claim => { run with state := claimAndEnqueue env now run.state id }
  | .execute args token worker draw =>
    { run with
      state := (Op.execute { args with row := id } token worker draw).run env now run.state
      entries := run.entries +
        if entersExecute env now { args with row := id } token worker run.state then 1 else 0 }
  | .crash args token worker =>
    if entersExecute env now { args with row := id } token worker run.state then
      { run with entries := run.entries + 1, crashes := run.crashes + 1 }
    else run
  | .recover limit draw => { run with state := recoverStale env now limit draw run.state }

def AttemptRun.play (env : EngineEnv) (id : RowId) (calls : List (Time × AttemptOp))
    (run : AttemptRun) : AttemptRun :=
  calls.foldl (fun run call ↦ call.2.apply env id call.1 run) run

/-- No worker of the sequence crashes after it has entered `execute`. -/
def AttemptRun.CrashFree (env : EngineEnv) (id : RowId) :
    List (Time × AttemptOp) → AttemptRun → Prop
  | [], _ => True
  | (now, op) :: rest, run =>
    (∀ args token worker, op = .crash args token worker →
      ¬ entersExecute env now { args with row := id } token worker run.state) ∧
    CrashFree env id rest (op.apply env id now run)

/-! ### Attempts of rows a step does not execute -/

/-- An attempt on the row may still begin. -/
def NodeStatus.isUpcoming (status : NodeStatus) : Bool :=
  status = .pending ∨ status = .ready ∨ status = .queued ∨ status = .running

theorem NodeStatus.isUpcoming_of_isClaimed (h : status.isClaimed) :
    status.isUpcoming := by
  revert h
  cases status <;> decide

theorem NodeStatus.not_isUpcoming_of_isSuccess (h : status.isSuccess) :
    ¬ status.isUpcoming := by
  revert h
  cases status <;> decide

/-- A write that counts no attempt and opens no row. -/
structure NodeRun.SameAttempt (row row' : NodeRun) : Prop where
  attempt : row'.attempt = row.attempt
  nodeType : row'.nodeType = row.nodeType
  nodeVersion : row'.nodeVersion = row.nodeVersion
  upcoming : row'.status.isUpcoming → row.status.isUpcoming

theorem NodeRun.SameAttempt.refl (row : NodeRun) : row.SameAttempt row := ⟨rfl, rfl, rfl, id⟩

theorem NodeRun.SameAttempt.trans {row'' : NodeRun} (h : row.SameAttempt row')
    (h' : row'.SameAttempt row'') : row.SameAttempt row'' :=
  ⟨h'.attempt.trans h.attempt, h'.nodeType.trans h.nodeType, h'.nodeVersion.trans h.nodeVersion,
    fun hup ↦ h.upcoming (h'.upcoming hup)⟩

/-- Every row is kept by such a write. -/
def SameAttempts (t t' : NodeTable) : Prop :=
  ∀ id row, t.find id = some row → ∃ row', t'.find id = some row' ∧ row.SameAttempt row'

theorem SameAttempts.refl (t : NodeTable) : SameAttempts t t :=
  fun _ row hrow ↦ ⟨row, hrow, .refl row⟩

theorem SameAttempts.trans {t t' t'' : NodeTable} (h : SameAttempts t t')
    (h' : SameAttempts t' t'') : SameAttempts t t'' := by
  intro id row hrow
  obtain ⟨row', hrow', hsame⟩ := h id row hrow
  obtain ⟨row'', hrow'', hsame'⟩ := h' id row' hrow'
  exact ⟨row'', hrow'', hsame.trans hsame'⟩

theorem sameAttempts_modify (t : NodeTable) (id : RowId) {f : NodeRun → NodeRun}
    (h : ∀ row, t.find id = some row → row.SameAttempt (f row)) : SameAttempts t (t.modify id f) := by
  intro key row hrow
  rw [find_modify]
  split_ifs with hkey
  · rw [hrow]
    exact ⟨f row, rfl, h row (hkey ▸ hrow)⟩
  · exact ⟨row, hrow, .refl row⟩

theorem claimAndEnqueue_sameAttempts (st : EngineState) (id : RowId) :
    SameAttempts st.nodes (claimAndEnqueue env now st id).nodes := by
  unfold claimAndEnqueue
  split
  · exact .refl _
  · rename_i claimed hclaimed
    obtain ⟨row, hrow, hclaim⟩ := Option.bind_eq_some_iff.mp hclaimed
    refine sameAttempts_modify _ _ fun current hcurrent ↦ ?_
    obtain rfl := Option.mem_unique hrow hcurrent
    unfold claimReadyNode at hclaim
    rw [Option.ite_none_right_eq_some] at hclaim
    obtain ⟨⟨hready, -⟩, hclaim⟩ := hclaim
    cases hclaim
    exact ⟨rfl, rfl, rfl, fun _ ↦ by rw [hready]; decide⟩

theorem promotePending_sameAttempts (t : NodeTable) (nodeId : String) :
    SameAttempts t (promotePending t nodeId) := by
  unfold promotePending
  split
  · exact .refl t
  · rename_i current hcurrent
    split_ifs with hpending
    · refine sameAttempts_modify _ _ fun row hrow ↦ ⟨rfl, rfl, rfl, fun _ ↦ ?_⟩
      obtain rfl := Option.some.inj ((NodeTable.get_eq_some hcurrent).1.symm.trans hrow)
      rw [hpending]
      decide
    · exact .refl t

theorem claimPass_sameAttempts (st : EngineState) :
    SameAttempts st.nodes (claimPass env now st).nodes := by
  have hpromoted : SameAttempts st.nodes (promoteReady env.graph st.nodes) := by
    refine foldl_invariant (P := SameAttempts st.nodes) (fun t nodeId _ h ↦ ?_) (.refl _)
    exact h.trans (promotePending_sameAttempts t nodeId)
  unfold claimPass
  refine foldl_invariant (P := fun acc : EngineState ↦ SameAttempts st.nodes acc.nodes)
    (fun acc id _ h ↦ h.trans (claimAndEnqueue_sameAttempts acc id)) ?_
  dsimp only
  split_ifs
  · exact hpromoted
  · exact .refl _

theorem advance_sameAttempts (st : EngineState) :
    SameAttempts st.nodes (advance env now st).nodes := by
  unfold advance
  split_ifs
  · exact .refl _
  · exact .refl _
  · exact claimPass_sameAttempts st

theorem followUp_sameAttempts (draw : ℚ) (id : RowId) (st : EngineState) :
    SameAttempts st.nodes (followUp env now draw id st).nodes := by
  unfold followUp
  split
  · split_ifs
    · exact .refl _
    · exact advance_sameAttempts st
    · exact .refl _
  · split_ifs
    · exact advance_sameAttempts st
    · exact .refl _

/-! ### Executions -/

/-- An execution that enters the implementation gets past every check and ends with a verdict. -/
theorem Op.apply_of_entersExecute (hglobals : env.globals = repairedGlobals)
    {worker : Option String}
    (h : entersExecute env now args token worker st) (draw : ℚ) :
    ¬ st.run.status.isTerminal ∧ ((st.nodes.find args.row).bind (beginNodeExecution env.claimLease
        now token worker args.taskExecutionId)).isSome ∧
      ∃ st', Op.apply env now (.execute args token worker draw) st = .ok st' := by
  unfold entersExecute at h
  rw [Op.apply, executeClaimedNodeRun]
  by_cases hterminal : st.run.status.isTerminal
  · rw [if_pos hterminal] at h
    simp at h
  rw [if_neg hterminal] at h ⊢
  refine ⟨hterminal, ?_⟩
  cases hbegun : (st.nodes.find args.row).bind
      (beginNodeExecution env.claimLease now token worker args.taskExecutionId) with
  | none =>
    rw [hbegun] at h
    simp at h
  | some begun =>
    simp only [hbegun] at h
    refine ⟨rfl, ?_⟩
    dsimp only
    split_ifs at h ⊢ with habort
    cases hnode : env.graph.node? args.row.nodeId with
    | none =>
      rw [hnode] at h
      simp at h
    | some graphNode =>
      simp only [hnode] at h
      dsimp only
      split at h
      · simp at h
      · rename_i prepared hprepared
        obtain ⟨row, hrow, hrowBegun⟩ := Option.bind_eq_some_iff.mp hbegun
        have hstatus := (beginNodeExecution_eq_some hrowBegun).2.2.1
        have hload := loadGlobals_repaired hglobals attemptNames (by decide)
        obtain ⟨verdict, hverdict⟩ := judgeNode_repaired hglobals st.run graphNode prepared
          args.outcome
        unfold executeReadyNode settleReadyNode
        rw [NodeTable.find_put_self _ begun hrow]
        simp only [hstatus, reduceCtorEq, or_self, if_false, hprepared, hload, hverdict, bind,
          Except.bind, pure, Except.pure, Except.map]
        exact ⟨_, rfl⟩

/-! ### The invariant -/

/-- The row belongs to the node, its counter is within the limit, and below it as long as an attempt
may still begin. -/
structure NodeRun.Within (node : GraphNode) (limit : ℕ) (row : NodeRun) : Prop where
  nodeType : row.nodeType = node.type
  nodeVersion : row.nodeVersion = node.version
  attempt_le : row.attempt ≤ limit
  attempt_lt : row.status.isUpcoming → row.attempt < limit

theorem NodeRun.Within.sameAttempt
    (h : row.Within node limit) (hsame : row.SameAttempt row') : row'.Within node limit where
  nodeType := hsame.nodeType.trans h.nodeType
  nodeVersion := hsame.nodeVersion.trans h.nodeVersion
  attempt_le := hsame.attempt ▸ h.attempt_le
  attempt_lt := fun hup ↦ hsame.attempt ▸ h.attempt_lt (hsame.upcoming hup)

/-- The row is within the limit, and every entry is counted on it or was lost in a crash. -/
def AttemptRun.Bounded (id : RowId) (node : GraphNode) (limit : ℕ) (run : AttemptRun) : Prop :=
  ∃ row, run.state.nodes.find id = some row ∧ row.Within node limit ∧
    run.entries ≤ row.attempt + run.crashes

theorem AttemptRun.Bounded.sameAttempts
    {run : AttemptRun} (h : run.Bounded id node limit) {state : EngineState}
    (hsame : SameAttempts run.state.nodes state.nodes) :
    { run with state := state }.Bounded id node limit := by
  obtain ⟨row, hrow, hwithin, hentries⟩ := h
  obtain ⟨row', hrow', hattempt⟩ := hsame id row hrow
  exact ⟨row', hrow', hwithin.sameAttempt hattempt, by rw [hattempt.attempt]; exact hentries⟩

section Steps

variable {impl : NodeImpl}

theorem recover_within (now : Time) (himpl : env.registry.get node.type node.version = some impl)
    (hversion : node.version ≠ 0) (draw : ℚ)
    (h : row.Within node impl.retryPolicy.maxAttempts) :
    (row.recover env now draw).Within node impl.retryPolicy.maxAttempts ∧
      (row.recover env now draw).attempt = row.attempt := by
  have hpolicy : recoveryPolicy env row = impl.retryPolicy := by
    unfold recoveryPolicy
    rw [h.nodeVersion, if_neg hversion, h.nodeType, himpl]
  unfold NodeRun.recover
  dsimp only
  rw [hpolicy]
  split_ifs with hretry
  · exact ⟨⟨h.nodeType, h.nodeVersion, h.attempt_le, fun _ ↦ attempt_lt_of_shouldRetry hretry⟩, rfl⟩
  · exact ⟨⟨h.nodeType, h.nodeVersion, h.attempt_le, fun hup ↦ absurd hup (by simp [failNode,
      NodeStatus.isUpcoming])⟩, rfl⟩

theorem recoverStale_bounded (himpl : env.registry.get node.type node.version = some impl)
    (hversion : node.version ≠ 0) (limit : ℕ) (draw : RowId → ℚ) {run : AttemptRun}
    (h : run.Bounded id node impl.retryPolicy.maxAttempts) :
    { run with state := recoverStale env now limit draw run.state }.Bounded id node
      impl.retryPolicy.maxAttempts := by
  obtain ⟨row, hrow, hwithin, hentries⟩ := h
  have hfold : ∃ row', (((listStaleClaimedNodes now limit run.state.nodes).map Prod.fst).foldl
      (fun t stale ↦ t.modify stale (NodeRun.recover env now (draw stale))) run.state.nodes).find id =
        some row' ∧ row'.Within node impl.retryPolicy.maxAttempts ∧ row'.attempt = row.attempt := by
    refine foldl_invariant (P := fun t : NodeTable ↦ ∃ row', t.find id = some row' ∧
      row'.Within node impl.retryPolicy.maxAttempts ∧ row'.attempt = row.attempt) ?_
      ⟨row, hrow, hwithin, rfl⟩
    rintro t stale - ⟨row', hrow', hwithin', hattempt⟩
    by_cases hid : id = stale
    · obtain ⟨hrecovered, hsame⟩ := recover_within now himpl hversion (draw stale)
        hwithin'
      refine ⟨_, ?_, hrecovered, hsame.trans hattempt⟩
      rw [find_modify, if_pos hid, hrow']
      rfl
    · exact ⟨row', by rw [find_modify_of_ne _ _ hid, hrow'], hwithin', hattempt⟩
  unfold recoverStale
  dsimp only
  split_ifs
  · exact ⟨row, hrow, hwithin, hentries⟩
  · obtain ⟨row', hrow', hwithin', hattempt⟩ := hfold
    exact ⟨row', hrow', hwithin', by rw [hattempt]; exact hentries⟩

/-- The row after an attempt: one more is counted, and a retry is granted below the limit only. -/
theorem Ran.within {begun : NodeRun}
    {graphNode : GraphNode} {prepared : Prepared} {settled : Executed × Option Finish}
    (hran : Ran env now args st row begun row' graphNode prepared settled)
    (hnode : env.graph.node? args.row.nodeId = some node)
    (himpl : env.registry.get node.type node.version = some impl)
    (h : row.Within node impl.retryPolicy.maxAttempts) :
    row'.Within node impl.retryPolicy.maxAttempts ∧ row'.attempt = row.attempt + 1 := by
  obtain rfl := Option.mem_unique hran.node hnode
  obtain rfl := Option.mem_unique hran.registered himpl
  have hattempt : row'.attempt = row.attempt + 1 := by
    rw [hran.settled.attempt, hran.begun_attempt]
  have hlt := h.attempt_lt (NodeStatus.isUpcoming_of_isClaimed hran.claimed)
  refine ⟨⟨?_, ?_, by omega, fun hup ↦ ?_⟩, hattempt⟩
  · rw [hran.settled.nodeType, hran.begun_nodeType, h.nodeType]
  · rw [hran.settled.claim.nodeVersion, hran.begun_claim.nodeVersion, h.nodeVersion]
  · rcases hran.settled.outcome with ⟨-, hfailed | ⟨-, -, errorClass, -, hretry⟩⟩ |
      ⟨-, hwaiting, -⟩ | ⟨-, hsuccess, -⟩
    · rw [hfailed] at hup
      exact absurd hup (by decide)
    · exact attempt_lt_of_shouldRetry hretry
    · rw [hwaiting] at hup
      exact absurd hup (by decide)
    · exact absurd hup (NodeStatus.not_isUpcoming_of_isSuccess hsuccess)

theorem completeNode_sameAttempt (token : Option ℕ) (row : NodeRun) :
    row.SameAttempt (completeNode token row) := by
  unfold completeNode
  split_ifs
  · exact ⟨rfl, rfl, rfl, fun hup ↦ hup⟩
  · exact .refl row

theorem completeExecution_find (env : EngineEnv) (now : Time) (token : ℕ) {done : Executed}
    (hrow : done.state.nodes.find id = some row) :
    ∃ row', (completeExecution env now token id done).nodes.find id = some row' ∧
      row.SameAttempt row' := by
  refine ⟨completeNode (some token) (row.honourCancellation done.state.run), ?_, ?_⟩
  · change (done.state.nodes.modify id _).find id = _
    rw [find_modify, if_pos rfl, hrow]
    rfl
  · have hhonoured : row.SameAttempt (row.honourCancellation done.state.run) := by
      unfold NodeRun.honourCancellation
      split_ifs
      · exact ⟨rfl, rfl, rfl, fun hup ↦ absurd hup
          (show ¬ NodeStatus.cancelled.isUpcoming by decide)⟩
      · exact .refl row
    exact hhonoured.trans (completeNode_sameAttempt _ _)

theorem abort_sameAttempt (token : Option ℕ) (row : NodeRun) :
    row.SameAttempt (row.abort now token) := by
  unfold NodeRun.abort
  refine .trans ?_ (completeNode_sameAttempt _ _)
  split_ifs
  · exact ⟨rfl, rfl, rfl, fun hup ↦ hup⟩
  · exact ⟨rfl, rfl, rfl, fun hup ↦ absurd hup
      (show ¬ NodeStatus.cancelled.isUpcoming by decide)⟩

/-- The row after an execution: within the limit, with one more attempt unless the run was over or the
claim was refused. -/
theorem ExecuteEffect.within {draw : ℚ} {st' : EngineState}
    {off : Option HandOff} (heffect : ExecuteEffect env now args token draw st off st')
    (hnode : env.graph.node? args.row.nodeId = some node)
    (himpl : env.registry.get node.type node.version = some impl)
    (hrow : st.nodes.find args.row = some row)
    (hwithin : row.Within node impl.retryPolicy.maxAttempts) :
    ∃ row', st'.nodes.find args.row = some row' ∧
      row'.Within node impl.retryPolicy.maxAttempts ∧
      (row'.attempt = row.attempt + 1 ∨ (row'.attempt = row.attempt ∧
        (st.run.status.isTerminal ∨ ¬ (row.claimToken = some token ∧
          row.cancellationRequested = false ∧ row.status.isClaimed)))) := by
  cases heffect with
  | aborted hterminal =>
    obtain ⟨row', hrow', hsame⟩ := sameAttempts_modify st.nodes args.row (f := fun row ↦
      if row.status = .queued ∨ row.status = .running ∨ row.status = .ready then
        row.abort now (if row.claimToken = some token then some token else none)
      else row) (fun row _ ↦ by
        split_ifs
        · exact abort_sameAttempt _ row
        · exact abort_sameAttempt _ row
        · exact .refl row) args.row row hrow
    exact ⟨row', hrow', hwithin.sameAttempt hsame, .inr ⟨hsame.attempt, .inl hterminal⟩⟩
  | rejected hrejected => exact ⟨row, hrow, hwithin, .inr ⟨rfl, .inr (hrejected row hrow)⟩⟩
  | missing _ _ _ _ _ _ _ _ hmissing =>
    exact absurd (hmissing.symm.trans hnode) (by simp)
  | ran ranRow begun row' graphNode prepared settled hran =>
    obtain rfl := Option.mem_unique hran.find hrow
    obtain ⟨hwithin', hattempt⟩ := hran.within hnode himpl hwithin
    obtain ⟨completed, hcompleted, hsame⟩ := completeExecution_find env now token hran.find_handOn
    obtain ⟨final, hfinal, hsame'⟩ := followUp_sameAttempts draw args.row _ args.row completed
      hcompleted
    have hkept := hsame.trans hsame'
    exact ⟨final, hfinal, hwithin'.sameAttempt hkept, .inl (by rw [hkept.attempt, hattempt])⟩

/-- One execution of the row. -/
theorem execute_bounded (hglobals : env.globals = repairedGlobals)
    (hnode : env.graph.node? id.nodeId = some node)
    (himpl : env.registry.get node.type node.version = some impl) (args : ExecuteArgs) (token : ℕ)
    (worker : Option String) (draw : ℚ) {run : AttemptRun}
    (h : run.Bounded id node impl.retryPolicy.maxAttempts) :
    ((AttemptOp.execute args token worker draw).apply env id now run).Bounded id node
      impl.retryPolicy.maxAttempts := by
  dsimp only [AttemptOp.apply]
  generalize hargs : ({ args with row := id } : ExecuteArgs) = own
  obtain rfl : own.row = id := by rw [← hargs]
  obtain ⟨row, hrow, hwithin, hentries⟩ := h
  rw [Op.run]
  cases happly : Op.apply env now (.execute own token worker draw) run.state with
  | error exc =>
    have hstays : ¬ entersExecute env now own token worker run.state := by
      intro henters
      obtain ⟨-, -, st', hok⟩ := Op.apply_of_entersExecute hglobals henters draw
      exact absurd (happly.symm.trans hok) (by simp)
    rw [if_neg hstays]
    exact ⟨row, hrow, hwithin, hentries⟩
  | ok st' =>
    obtain ⟨row', hrow', hwithin', hattempt⟩ :=
      (executeClaimedNodeRun_effect happly).within hnode himpl hrow hwithin
    refine ⟨row', hrow', hwithin', ?_⟩
    dsimp only
    rcases hattempt with hmore | ⟨hsame, hrefused⟩
    · split_ifs <;> omega
    · have hstays : ¬ entersExecute env now own token worker run.state := by
        intro henters
        obtain ⟨hopen, hbegun, -⟩ := Op.apply_of_entersExecute hglobals henters draw
        rw [hrow, Option.bind_some] at hbegun
        obtain ⟨begun, hbegun⟩ := Option.isSome_iff_exists.mp hbegun
        rcases hrefused with hterminal | hheld
        · exact hopen hterminal
        · have hclaimed := beginNodeExecution_eq_some hbegun
          exact hheld ⟨(beginNodeExecution_tokens hbegun).1, hclaimed.2.1, hclaimed.1⟩
      rw [if_neg hstays, hsame]
      exact hentries

/-- One step. -/
theorem AttemptOp.apply_bounded (hglobals : env.globals = repairedGlobals)
    (hnode : env.graph.node? id.nodeId = some node)
    (himpl : env.registry.get node.type node.version = some impl) (hversion : node.version ≠ 0)
    (op : AttemptOp) {run : AttemptRun} (h : run.Bounded id node impl.retryPolicy.maxAttempts) :
    (op.apply env id now run).Bounded id node impl.retryPolicy.maxAttempts := by
  cases op with
  | claim => exact h.sameAttempts (claimAndEnqueue_sameAttempts run.state id)
  | execute args token worker draw => exact execute_bounded hglobals hnode himpl args token worker draw h
  | crash args token worker =>
    dsimp only [AttemptOp.apply]
    split_ifs
    · obtain ⟨row, hrow, hwithin, hentries⟩ := h
      exact ⟨row, hrow, hwithin, by dsimp only; omega⟩
    · exact h
  | recover limit draw => exact recoverStale_bounded himpl hversion limit draw h

end Steps

/-! ### Runs -/

/-- Every entry is one of at most `max_attempts` attempts or was lost in a crash. -/
theorem AttemptRun.play_bounded (hglobals : env.globals = repairedGlobals)
    {impl : NodeImpl}
    (hnode : env.graph.node? id.nodeId = some node)
    (himpl : env.registry.get node.type node.version = some impl) (hversion : node.version ≠ 0)
    (calls : List (Time × AttemptOp)) {run : AttemptRun}
    (h : run.Bounded id node impl.retryPolicy.maxAttempts) :
    (run.play env id calls).Bounded id node impl.retryPolicy.maxAttempts :=
  foldl_invariant (fun _ call _ hacc ↦ call.2.apply_bounded hglobals hnode himpl hversion hacc) h

theorem AttemptRun.CrashFree.crashes
    {calls : List (Time × AttemptOp)} {run : AttemptRun} (h : CrashFree env id calls run) :
    (run.play env id calls).crashes = run.crashes := by
  induction calls generalizing run with
  | nil => rfl
  | cons call rest ih =>
    obtain ⟨now, op⟩ := call
    obtain ⟨hop, hrest⟩ := h
    refine (ih hrest).trans ?_
    cases op with
    | crash args token worker =>
      dsimp only [AttemptOp.apply]
      rw [if_neg (hop args token worker rfl)]
    | _ => rfl

/-- A node whose policy allows `max_attempts` attempts is entered at most so often, in every sequence
of claims, executions, crashes and recoveries in which no worker crashes after it has entered
`execute`. Assumes: the missing names are bound, the row is a row of the node that has not been
attempted, the version of the node and `max_attempts` are at least one, as their schemas require. -/
theorem entries_le_maxAttempts (env : EngineEnv) (hglobals : env.globals = repairedGlobals)
    (id : RowId) (node : GraphNode) (hnode : env.graph.node? id.nodeId = some node)
    (hversion : 1 ≤ node.version) (impl : NodeImpl)
    (himpl : env.registry.get node.type node.version = some impl)
    (hpositive : 1 ≤ impl.retryPolicy.maxAttempts) (start : EngineState) (row : NodeRun)
    (hrow : start.nodes.find id = some row) (htype : row.nodeType = node.type)
    (hrowVersion : row.nodeVersion = node.version) (hfresh : row.attempt = 0)
    (calls : List (Time × AttemptOp))
    (hcrashes : AttemptRun.CrashFree env id calls { state := start }) :
    (AttemptRun.play env id calls { state := start }).entries ≤ impl.retryPolicy.maxAttempts := by
  have hstart : AttemptRun.Bounded id node impl.retryPolicy.maxAttempts { state := start } :=
    ⟨row, hrow, ⟨htype, hrowVersion, by omega, fun _ ↦ by omega⟩, by simp⟩
  obtain ⟨last, -, hwithin, hentries⟩ :=
    AttemptRun.play_bounded hglobals hnode himpl (by omega) calls hstart
  rw [hcrashes.crashes] at hentries
  exact hentries.trans hwithin.attempt_le

/-- A run of the trigger that nobody has claimed. -/
def triggerReady : EngineState :=
  startRun (catalogueEnv triggerGraph repairedGlobals) 0 .idle [] []

/-- The trigger is claimed and executed, and has been entered once. -/
theorem trigger_entered_within_maxAttempts :
    ∃ impl, catalogue.get "manual_trigger" 1 = some impl ∧
      (AttemptRun.play (catalogueEnv triggerGraph repairedGlobals) ⟨"t", ""⟩
        [(0, .claim), (1, .execute triggerArgs 0 none 0)] { state := triggerReady }).entries ≤
        impl.retryPolicy.maxAttempts :=
  ⟨_, rfl, entries_le_maxAttempts _ rfl _ triggerNode rfl (by decide) _ rfl (by decide) _ _ rfl rfl
    rfl rfl _ ⟨by simp, by simp, trivial⟩⟩

/-- The worker of the claim `token` crashes in `execute`, the lease runs out, and the row is claimed
again after the backoff. -/
def crashCycle (token : ℕ) : List (Time × AttemptOp) :=
  [(1000000000 * token, .claim), (1000000000 * token, .crash triggerArgs token none),
    (1000000000 * token + 900000000, .recover 1 fun _ ↦ 0)]

/-- The trigger may be attempted three times. It is entered a fourth time, and its row has not
failed: recovery sees a counter that no crash has raised. -/
theorem trigger_entered_after_maxAttempts :
    graphValid catalogue (fun _ ↦ []) triggerGraph {} ∧
      ((catalogue.get "manual_trigger" 1).map fun impl ↦ impl.retryPolicy.maxAttempts) = some 3 ∧
      ∃ last, last = AttemptRun.play (catalogueEnv triggerGraph repairedGlobals) ⟨"t", ""⟩
          (crashCycle 0 ++ crashCycle 1 ++ crashCycle 2 ++ crashCycle 3) { state := triggerReady } ∧
        last.entries = 4 ∧
        (last.state.nodes.find ⟨"t", ""⟩).map (fun row ↦ (row.status, row.attempt)) =
          some (.ready, 0) :=
  ⟨by decide +kernel, by decide +kernel, _, rfl, by decide +kernel, by decide +kernel⟩

end ContentGenerator.Workflows
