import ContentGenerator.Lib.Overlap
import ContentGenerator.Workflows.Attempts
import ContentGenerator.Workflows.ClaimProtocol
import ContentGenerator.Workflows.Runs

/-!
# Workers on one row

Deliveries of the execute message of one row, by any number of workers, with the claims and the
recovery of the row in between. A delivery is not one transaction in effect: it loads the row and
checks the claim (`begin_node_execution`), waits for the row lock, runs the implementation, which may
commit the session half way, and writes what it has changed (`WorkerOp`).

A session writes the columns that differ from what it last loaded or committed, by primary key
(`NodeRun.flush`); only `complete_node` compares the claim token. The row lock is held from the first
write to the next commit, and claims and recovery skip locked rows. A delivery to a run that is over, and
the `advance` after an execution, are left out.
-/

namespace ContentGenerator.Workflows

open Lib Relation List Option KeyedTable
open Function (update update_apply)
open NodeTable (find_put_self)

variable {base row : NodeRun} {id : RowId}

/-! ### What a session writes -/

/-- The stored row after a session that loaded `base` has written what it changed. -/
def NodeRun.flush (base new stored : NodeRun) : NodeRun where
  nodeType := flushColumn base.nodeType new.nodeType stored.nodeType
  nodeVersion := flushColumn base.nodeVersion new.nodeVersion stored.nodeVersion
  status := flushColumn base.status new.status stored.status
  attempt := flushColumn base.attempt new.attempt stored.attempt
  inputJson := flushColumn base.inputJson new.inputJson stored.inputJson
  outputJson := flushColumn base.outputJson new.outputJson stored.outputJson
  errorJson := flushColumn base.errorJson new.errorJson stored.errorJson
  taskExecutionId := flushColumn base.taskExecutionId new.taskExecutionId stored.taskExecutionId
  taskExecutionIds := flushColumn base.taskExecutionIds new.taskExecutionIds stored.taskExecutionIds
  startedAt := flushColumn base.startedAt new.startedAt stored.startedAt
  finishedAt := flushColumn base.finishedAt new.finishedAt stored.finishedAt
  waitingReason := flushColumn base.waitingReason new.waitingReason stored.waitingReason
  resumeToken := flushColumn base.resumeToken new.resumeToken stored.resumeToken
  claimToken := flushColumn base.claimToken new.claimToken stored.claimToken
  claimExpiresAt := flushColumn base.claimExpiresAt new.claimExpiresAt stored.claimExpiresAt
  claimedAt := flushColumn base.claimedAt new.claimedAt stored.claimedAt
  workerTaskId := flushColumn base.workerTaskId new.workerTaskId stored.workerTaskId
  nextAttemptAt := flushColumn base.nextAttemptAt new.nextAttemptAt stored.nextAttemptAt
  lastHeartbeatAt := flushColumn base.lastHeartbeatAt new.lastHeartbeatAt stored.lastHeartbeatAt
  executionKey := flushColumn base.executionKey new.executionKey stored.executionKey
  lastError := flushColumn base.lastError new.lastError stored.lastError
  errorClass := flushColumn base.errorClass new.errorClass stored.errorClass
  cancellationRequested :=
    flushColumn base.cancellationRequested new.cancellationRequested stored.cancellationRequested

/-- The stored rows after a session that loaded `base` has written what it changed and inserted what
it created. The uniqueness constraint refuses a row that somebody else has created. -/
def NodeTable.flush (base new stored : NodeTable) : Option NodeTable :=
  let created := new.entries.filter fun entry ↦ (base.find entry.1).isNone
  let written := stored.mapValues fun id row ↦
    match base.find id, new.find id with
    | some loaded, some changed => NodeRun.flush loaded changed row
    | _, _ => row
  if created.any fun entry ↦ (stored.find entry.1).isSome then none
  else some (created.foldl (fun t entry ↦ t.insertNew entry.1 entry.2) written)

variable {new stored t : NodeTable}

theorem NodeTable.find_flush {base : NodeTable} (h : NodeTable.flush base new stored = some t)
    {loaded changed : NodeRun} (hbase : base.find id = some loaded)
    (hnew : new.find id = some changed) (hrow : stored.find id = some row) :
    t.find id = some (NodeRun.flush loaded changed row) := by
  unfold NodeTable.flush at h
  dsimp only at h
  split_ifs at h
  cases h
  rw [find_foldl_insertNew, find_mapValues, hrow]
  simp only [map_some, hbase, hnew, some_or]

/-- A session deletes no row. -/
theorem NodeTable.isSome_find_flush {base : NodeTable}
    (h : NodeTable.flush base new stored = some t) (hrow : (stored.find id).isSome) :
    (t.find id).isSome := by
  obtain ⟨row, hrow⟩ := isSome_iff_exists.mp hrow
  unfold NodeTable.flush at h
  dsimp only at h
  split_ifs at h
  cases h
  rw [find_foldl_insertNew, find_mapValues, hrow]
  rfl

/-- A session that has created no row is not refused. -/
theorem NodeTable.exists_flush {base : NodeTable}
    (h : ∀ id, (new.find id).isSome → (base.find id).isSome) :
    ∃ t, NodeTable.flush base new stored = some t := by
  have hnone : (new.entries.filter fun entry ↦ (base.find entry.1).isNone) = [] := by
    refine filter_eq_nil_iff.mpr fun entry hentry hisNone ↦ ?_
    have hsome := h entry.1 (by rw [(find_eq_some_iff _ _ _).mpr hentry]; rfl)
    rw [isNone_iff_eq_none.mp hisNone] at hsome
    simp at hsome
  unfold NodeTable.flush
  dsimp only
  rw [hnone]
  exact ⟨_, rfl⟩

/-- A row after a session has written: as it was, as the session has left it, or created by the session. -/
theorem NodeTable.find_flush_cases {base : NodeTable}
    (h : NodeTable.flush base new stored = some t)
    (hrow : t.find id = some row) :
    stored.find id = some row ∨
      (∃ old loaded changed, stored.find id = some old ∧ base.find id = some loaded ∧
        new.find id = some changed ∧ row = NodeRun.flush loaded changed old) ∨
      base.find id = none ∧ new.find id = some row := by
  unfold NodeTable.flush at h
  dsimp only at h
  split_ifs at h
  cases h
  rw [find_foldl_insertNew, find_mapValues] at hrow
  cases hstored : stored.find id with
  | some old =>
    rw [hstored] at hrow
    cases hrow
    cases hbase : base.find id with
    | none => exact .inl rfl
    | some loaded =>
      cases hnew : new.find id with
      | none => exact .inl rfl
      | some changed => exact .inr (.inl ⟨old, loaded, changed, rfl, rfl, rfl, rfl⟩)
  | none =>
    rw [hstored, map_none, none_or] at hrow
    obtain ⟨entry, hentry, rfl⟩ := map_eq_some_iff.mp hrow
    have hid : entry.1 = id := by simpa using find?_some hentry
    have hcreated := mem_filter.mp (mem_of_find?_eq_some hentry)
    refine .inr (.inr ⟨?_, ?_⟩)
    · rw [← hid]
      exact isNone_iff_eq_none.mp hcreated.2
    · rw [← hid]
      exact (find_eq_some_iff _ _ _).mpr hcreated.1

/-! ### Sessions -/

/-- What a session works with once the attempt has begun: the node, the prepared inputs with the outputs of
its snapshot, and the rows it has loaded with the row of the attempt. -/
structure Attempt where
  graphNode : GraphNode
  prepared : Prepared
  nodes : NodeTable
  row : NodeRun

/-- How far a delivery has come: the claim has been checked; the node is executing and the row is
locked; the implementation has committed the session. -/
inductive Phase
  | loaded (begun : NodeRun)
  | executing (attempt : Attempt)
  | checkpointed (attempt : Attempt)

/-- The session of a delivery: the token of its message, the task it is recorded under, and the row
as it was loaded. -/
structure Session where
  token : ℕ
  taskExecutionId : Option ℕ
  row : NodeRun
  phase : Phase

def Session.InAttempt (session : Session) (attempt : Attempt) : Prop :=
  session.phase = .executing attempt ∨ session.phase = .checkpointed attempt

/-- The run and its rows as they are committed, the token counter, the open session of each worker,
who holds the lock of the row, the tokens under which `execute` has been entered, and those under
which a worker has crashed or been rolled back after that. -/
structure Workers where
  run : Run
  nodes : NodeTable
  nextToken : ℕ
  session : ℕ → Option Session := fun _ ↦ none
  lock : Option ℕ := none
  entries : List ℕ := []
  lost : List ℕ := []

/-- A step on the row. The number names the worker. -/
inductive WorkerOp
  | claim
  | recover (draw : ℚ)
  | deliver (who token : ℕ) (workerTaskId : Option String) (taskExecutionId : Option ℕ)
  | enter (who : ℕ)
  | checkpoint (who : ℕ)
  | finish (who : ℕ) (outcome : Except PyException NodeResult) (draw : ℚ)
  | crash (who : ℕ)

namespace Workers

def close (s : Workers) (who : ℕ) : Workers :=
  { s with
    session := update s.session who none
    lock := if s.lock = some who then none else s.lock }

def proceed (s : Workers) (who : ℕ) (session : Session) (phase : Phase) : Workers :=
  { s with session := update s.session who (some { session with phase := phase }) }

/-- The attempt a session begins: `execute_ready_node` up to the call of the implementation. The
other rows are loaded now; the session keeps its own copy of the row. -/
def beginAttempt (env : EngineEnv) (now : Time) (id : RowId) (s : Workers) (session : Session)
    (begun : NodeRun) : Option Attempt :=
  let nodeOutputs := asDict (s.run.contextSnapshot.get "node_outputs")
  match env.graph.node? id.nodeId with
  | none => none
  | some graphNode =>
    match prepareInputs env s.run (s.nodes.put id begun) graphNode id begun nodeOutputs
        (asDict (s.run.contextSnapshot.get "initial_inputs")),
      env.loadGlobals attemptNames with
    | .ok prepared, .ok () =>
      some
        { graphNode := graphNode
          prepared := prepared
          nodes := s.nodes
          row := begun.beginAttempt now prepared session.taskExecutionId s.nextToken }
    | _, _ => none

/-- The rows a session ends with: the verdict on what the implementation did, recorded and handed
on. -/
def settle (env : EngineEnv) (now : Time) (id : RowId) (s : Workers) (attempt : Attempt)
    (outcome : Except PyException NodeResult) (draw : ℚ) : Option NodeTable :=
  match judgeNode env s.run attempt.graphNode attempt.prepared outcome with
  | .error _ => none
  | .ok verdict =>
    some (handOn env now attempt.graphNode.type (recordOutcome env now draw id attempt.row
      attempt.prepared.impl.retryPolicy
      { state :=
          { run := s.run, nodes := attempt.nodes.put id attempt.row, nextToken := s.nextToken }
        nodeOutputs := attempt.prepared.nodeOutputs } verdict)).state.nodes

/-- The end of a session that loaded `base` as its row: write what it has changed, then
`complete_node`. A session that raises is rolled back. -/
def finishWith (env : EngineEnv) (now : Time) (id : RowId) (s : Workers) (who : ℕ) (token : ℕ)
    (attempt : Attempt) (base : NodeRun) (outcome : Except PyException NodeResult) (draw : ℚ) :
    Workers :=
  match (settle env now id s attempt outcome draw).bind fun settled ↦
      NodeTable.flush (attempt.nodes.put id base) settled s.nodes with
  | none => { s.close who with lost := token :: s.lost }
  | some nodes =>
    { s with
      nodes := nodes.modify id (completeNode (some token))
      nextToken := s.nextToken + 1 }.close who

/-- The step on the row `id`. -/
def apply (env : EngineEnv) (id : RowId) (now : Time) (s : Workers) : WorkerOp → Workers
  | .claim =>
    match (s.nodes.find id).bind (claimReadyNode env.runId env.claimLease now s.nextToken id) with
    | some claimed =>
      if s.lock.isNone then
        { s with nodes := s.nodes.put id claimed, nextToken := s.nextToken + 1 }
      else s
    | none => s
  | .recover draw =>
    if s.lock.isNone ∧ ((s.nodes.find id).any fun row ↦ row.isStale now) then
      { s with nodes := s.nodes.modify id (NodeRun.recover env now draw) }
    else s
  | .deliver who token worker task =>
    match s.session who, s.nodes.find id with
    | none, some row =>
      match beginNodeExecution env.claimLease now token worker task row with
      | some begun =>
        if s.run.status.isTerminal ∨ shouldAbortNode begun s.run then s
        else
          { s with
            session := update s.session who
              (some { token := token, taskExecutionId := task, row := row, phase := .loaded begun }) }
      | none => s
    | _, _ => s
  | .enter who =>
    match s.session who with
    | some session =>
      match session.phase with
      | .loaded begun =>
        if s.lock.isSome then s
        else
          match s.beginAttempt env now id session begun with
          | none => s.close who
          | some attempt =>
            { s.proceed who session (.executing attempt) with
              lock := some who
              nextToken := s.nextToken + 1
              entries :=
                if reachesImplementation env s.run attempt.graphNode attempt.prepared then
                  session.token :: s.entries
                else s.entries }
      | _ => s
    | none => s
  | .checkpoint who =>
    match s.session who with
    | some session =>
      match session.phase with
      | .executing attempt =>
        { s.proceed who session (.checkpointed attempt) with
          nodes := s.nodes.modify id (NodeRun.flush session.row attempt.row)
          lock := none }
      | _ => s
    | none => s
  | .finish who outcome draw =>
    match s.session who with
    | some session =>
      match session.phase with
      | .executing attempt =>
        s.finishWith env now id who session.token attempt session.row outcome draw
      | .checkpointed attempt =>
        if s.lock.isSome then s
        else s.finishWith env now id who session.token attempt attempt.row outcome draw
      | .loaded _ => s
    | none => s
  | .crash who =>
    match s.session who with
    | some session =>
      match session.phase with
      | .loaded _ => s.close who
      | _ => { s.close who with lost := session.token :: s.lost }
    | none => s

def play (env : EngineEnv) (id : RowId) (calls : List (Time × WorkerOp)) (s : Workers) : Workers :=
  calls.foldl (fun s call ↦ s.apply env id call.1 call.2) s

variable {env : EngineEnv} {now : Time} {s : Workers}

/-! ### What a session keeps of the claim -/

/-- The row of the verdict keeps its claim. -/
theorem recordOutcome_keepsClaim (env : EngineEnv) (now : Time) (draw : ℚ) (id : RowId)
    (row : NodeRun) (policy : RetryPolicyDefaults) (before : Executed) (verdict : Verdict) :
    ∃ final, (recordOutcome env now draw id row policy before verdict).1.state.nodes =
        before.state.nodes.put id final ∧ row.KeepsClaim final ∧
      ((recordOutcome env now draw id row policy before verdict).2 = none ∨
        final.status.isSuccess) := by
  cases verdict with
  | failure error errorClass =>
    obtain ⟨hversion, htoken, -⟩ := persistFailure_tokens env.render now draw policy error errorClass row
    exact ⟨_, rfl, ⟨hversion, htoken⟩, .inl rfl⟩
  | result result output =>
    obtain ⟨status, raw, error, reason⟩ := result
    cases status with
    | succeeded => exact ⟨row.finish now .succeeded output, rfl, ⟨rfl, rfl⟩, .inr rfl⟩
    | skipped => exact ⟨row.finish now .skipped output, rfl, ⟨rfl, rfl⟩, .inr rfl⟩
    | waiting =>
      exact ⟨row.pause reason before.state.nextToken output, rfl, ⟨rfl, rfl⟩, .inl rfl⟩
    | failed =>
      let payload := (error.filter (¬ ·.isEmpty)).getD [("code", .str "node_failed")]
      obtain ⟨hversion, htoken, -⟩ := persistFailure_tokens env.render now draw policy payload
        (classifyErrorPayload env.render payload).value { row with outputJson := output }
      exact ⟨_, rfl, ⟨hversion, htoken⟩, .inl rfl⟩

theorem find_handOn_recordOutcome (env : EngineEnv) (now : Time) (draw : ℚ) (row : NodeRun)
    (policy : RetryPolicyDefaults) {before : Executed} (verdict : Verdict) (nodeType : String)
    {old : NodeRun} (hold : before.state.nodes.find id = some old) :
    ∃ final, (handOn env now nodeType
        (recordOutcome env now draw id row policy before verdict)).state.nodes.find id = some final ∧
      row.KeepsClaim final := by
  obtain ⟨final, hnodes, hclaim, hsuccess⟩ :=
    recordOutcome_keepsClaim env now draw id row policy before verdict
  refine ⟨final, ?_, hclaim⟩
  generalize recordOutcome env now draw id row policy before verdict = recorded at hnodes hsuccess
  have hfind : recorded.1.state.nodes.find id = some final := by
    rw [hnodes]
    exact find_put_self _ _ hold
  obtain ⟨done, finish⟩ := recorded
  cases finish with
  | none => exact hfind
  | some finish =>
    have hskippable : ¬ final.status.isSkippable := by
      rcases hsuccess with hnone | hsuccess
      · simp at hnone
      · revert hsuccess
        cases final.status <;> decide
    exact HandOff.find_apply env now
      { finish := finish, nodeType := some nodeType, nodes := done.state.nodes } hfind hskippable

variable {attempt : Attempt} {who : ℕ} {session : Session} {phase : Phase} {op : WorkerOp} {s' : Workers}

theorem settle_find {outcome : Except PyException NodeResult} {draw : ℚ}
    {settled : NodeTable} (h : settle env now id s attempt outcome draw = some settled)
    (hrow : (attempt.nodes.find id).isSome) :
    ∃ final, settled.find id = some final ∧ attempt.row.KeepsClaim final := by
  obtain ⟨old, hold⟩ := isSome_iff_exists.mp hrow
  unfold settle at h
  split at h
  · simp at h
  · rename_i verdict _
    cases h
    exact find_handOn_recordOutcome env now draw attempt.row attempt.prepared.impl.retryPolicy verdict
      attempt.graphNode.type (find_put_self _ attempt.row hold)

/-- A session that does not change the claim token leaves the stored one alone. -/
theorem claimToken_flush {new : NodeRun} (h : base.KeepsClaim new) (stored : NodeRun) :
    (NodeRun.flush base new stored).claimToken = stored.claimToken := by
  change flushColumn base.claimToken new.claimToken stored.claimToken = _
  rw [h.claimToken, flushColumn_unchanged]

/-! ### What a step can do -/

/-- What each step can do, with the guards it has passed. -/
inductive Effect (env : EngineEnv) (id : RowId) (now : Time) (s : Workers) :
    WorkerOp → Workers → Prop
  | idle (op : WorkerOp) : Effect env id now s op s
  | claimed (row claimed : NodeRun) (hrow : s.nodes.find id = some row)
      (hready : row.status = .ready) (hclaimed : claimed.claimToken = some s.nextToken) :
      Effect env id now s .claim
        { s with nodes := s.nodes.put id claimed, nextToken := s.nextToken + 1 }
  | recovered (draw : ℚ) (hlock : s.lock = none) :
      Effect env id now s (.recover draw)
        { s with nodes := s.nodes.modify id (NodeRun.recover env now draw) }
  | delivered (who token : ℕ) (worker : Option String) (task : Option ℕ) (row begun : NodeRun)
      (hfree : s.session who = none) (hrow : s.nodes.find id = some row)
      (hbegun : beginNodeExecution env.claimLease now token worker task row = some begun) :
      Effect env id now s (.deliver who token worker task)
        { s with
          session := update s.session who
            (some { token := token, taskExecutionId := task, row := row, phase := .loaded begun }) }
  | refused (who : ℕ) (session : Session) (begun : NodeRun)
      (hsession : s.session who = some session) (hphase : session.phase = .loaded begun) :
      Effect env id now s (.enter who) (s.close who)
  | entered (who : ℕ) (session : Session) (begun : NodeRun) (attempt : Attempt) (entries : List ℕ)
      (hsession : s.session who = some session) (hphase : session.phase = .loaded begun)
      (hlock : s.lock = none) (hattempt : s.beginAttempt env now id session begun = some attempt)
      (hentries : entries = s.entries ∨ entries = session.token :: s.entries) :
      Effect env id now s (.enter who)
        { s.proceed who session (.executing attempt) with
          lock := some who
          nextToken := s.nextToken + 1
          entries := entries }
  | checkpointed (who : ℕ) (session : Session) (attempt : Attempt)
      (hsession : s.session who = some session) (hphase : session.phase = .executing attempt) :
      Effect env id now s (.checkpoint who)
        { s.proceed who session (.checkpointed attempt) with
          nodes := s.nodes.modify id (NodeRun.flush session.row attempt.row)
          lock := none }
  | rolledBack (who : ℕ) (outcome : Except PyException NodeResult) (draw : ℚ) (session : Session)
      (attempt : Attempt) (hsession : s.session who = some session)
      (hphase : session.InAttempt attempt) :
      Effect env id now s (.finish who outcome draw)
        { s.close who with lost := session.token :: s.lost }
  | finished (who : ℕ) (outcome : Except PyException NodeResult) (draw : ℚ) (session : Session)
      (attempt : Attempt) (base : NodeRun) (settled nodes : NodeTable)
      (hsession : s.session who = some session) (hphase : session.InAttempt attempt)
      (hbase : base = session.row ∨ base = attempt.row)
      (hsettled : settle env now id s attempt outcome draw = some settled)
      (hnodes : NodeTable.flush (attempt.nodes.put id base) settled s.nodes = some nodes) :
      Effect env id now s (.finish who outcome draw)
        ({ s with
            nodes := nodes.modify id (completeNode (some session.token))
            nextToken := s.nextToken + 1 }.close who)
  | crashed (who : ℕ) (session : Session) (lost : List ℕ) (hsession : s.session who = some session)
      (hlost : (∃ begun, session.phase = .loaded begun ∧ lost = s.lost) ∨
        lost = session.token :: s.lost) :
      Effect env id now s (.crash who) { s.close who with lost := lost }

theorem finishWith_effect
    (hsession : s.session who = some session) (hphase : session.InAttempt attempt)
    (hbase : base = session.row ∨ base = attempt.row) (outcome : Except PyException NodeResult)
    (draw : ℚ) :
    Effect env id now s (.finish who outcome draw)
      (s.finishWith env now id who session.token attempt base outcome draw) := by
  unfold finishWith
  split
  · exact .rolledBack who outcome draw session attempt hsession hphase
  · rename_i nodes hnodes
    obtain ⟨settled, hsettled, hflush⟩ := bind_eq_some_iff.mp hnodes
    exact .finished who outcome draw session attempt base settled nodes hsession hphase hbase hsettled
      hflush

theorem apply_effect (env : EngineEnv) (id : RowId) (now : Time) (s : Workers) (op : WorkerOp) :
    Effect env id now s op (s.apply env id now op) := by
  cases op with
  | claim =>
    dsimp only [apply]
    split
    · rename_i claimed hclaimed
      split_ifs
      · obtain ⟨row, hrow, hclaim⟩ := bind_eq_some_iff.mp hclaimed
        unfold claimReadyNode at hclaim
        rw [ite_none_right_eq_some] at hclaim
        obtain ⟨⟨hready, -⟩, hclaim⟩ := hclaim
        exact .claimed row claimed hrow hready (by rw [← Option.some.inj hclaim])
      · exact .idle _
    · exact .idle _
  | recover draw =>
    dsimp only [apply]
    split_ifs with hguard
    · exact .recovered draw (isNone_iff_eq_none.mp hguard.1)
    · exact .idle _
  | deliver who token worker task =>
    dsimp only [apply]
    split
    · rename_i row hfree hrow
      split
      · rename_i begun hbegun
        split_ifs
        · exact .idle _
        · exact .delivered who token worker task row begun hfree hrow hbegun
      · exact .idle _
    · exact .idle _
  | enter who =>
    dsimp only [apply]
    split
    · rename_i session hsession
      split
      · rename_i begun hphase
        split_ifs with hlock
        · exact .idle _
        · have hfree : s.lock = none := by simpa using hlock
          split
          · exact .refused who session begun hsession hphase
          · rename_i attempt hattempt
            split_ifs
            · exact .entered who session begun attempt _ hsession hphase hfree hattempt (.inr rfl)
            · exact .entered who session begun attempt _ hsession hphase hfree hattempt (.inl rfl)
      · exact .idle _
    · exact .idle _
  | checkpoint who =>
    dsimp only [apply]
    split
    · rename_i session hsession
      split
      · rename_i attempt hphase
        exact .checkpointed who session attempt hsession hphase
      · exact .idle _
    · exact .idle _
  | finish who outcome draw =>
    dsimp only [apply]
    split
    · rename_i session hsession
      split
      · rename_i attempt hphase
        exact finishWith_effect hsession (.inl hphase) (.inl rfl) outcome draw
      · rename_i attempt hphase
        split_ifs
        · exact .idle _
        · exact finishWith_effect hsession (.inr hphase) (.inr rfl) outcome draw
      · exact .idle _
    · exact .idle _
  | crash who =>
    dsimp only [apply]
    split
    · rename_i session hsession
      split
      · rename_i begun hphase
        exact .crashed who session s.lost hsession (.inl ⟨begun, hphase, rfl⟩)
      · exact .crashed who session _ hsession (.inr rfl)
    · exact .idle _

/-! ### Sound sessions -/

/-- An open session: it loaded the row under its token, and what it holds of the row keeps the
claim and the output. -/
structure SessionSound (id : RowId) (session : Session) : Prop where
  token : session.row.claimToken = some session.token
  loaded : ∀ begun, session.phase = .loaded begun →
    session.row.KeepsClaim begun ∧ begun.outputJson = session.row.outputJson
  attempt : ∀ attempt, session.InAttempt attempt →
    session.row.KeepsClaim attempt.row ∧ attempt.row.status = .running ∧
      attempt.row.outputJson = session.row.outputJson ∧ (attempt.nodes.find id).isSome

/-- The row exists, and every open session is sound. -/
structure Sound (id : RowId) (s : Workers) : Prop where
  row : (s.nodes.find id).isSome
  session : ∀ who session, s.session who = some session → SessionSound id session

theorem session_close (s : Workers) (who w : ℕ) :
    (s.close who).session w = if w = who then none else s.session w :=
  update_apply _ _ _ _

theorem session_proceed (s : Workers) (who : ℕ) (session : Session) (phase : Phase) (w : ℕ) :
    (s.proceed who session phase).session w =
      if w = who then some { session with phase := phase } else s.session w :=
  update_apply _ _ _ _

/-- The sessions that stay open when one is closed. -/
theorem open_of_close {s : Workers} {w : ℕ}
    (h : (s.close who).session w = some session) : w ≠ who ∧ s.session w = some session := by
  rw [session_close] at h
  split_ifs at h with hw
  exact ⟨hw, h⟩

/-- The sessions after one has come further. -/
theorem open_of_proceed {s : Workers} {w : ℕ} {session' : Session}
    (h : (s.proceed who session phase).session w = some session') :
    (w = who ∧ session' = { session with phase := phase }) ∨
      (w ≠ who ∧ s.session w = some session') := by
  rw [session_proceed] at h
  split_ifs at h with hw
  · exact .inl ⟨hw, (Option.some.inj h).symm⟩
  · exact .inr ⟨hw, h⟩

theorem beginAttempt_eq_some {begun : NodeRun} (h : s.beginAttempt env now id session begun = some attempt) :
    begun.KeepsClaim attempt.row ∧ attempt.row.status = .running ∧ attempt.nodes = s.nodes ∧
      attempt.row.outputJson = begun.outputJson := by
  unfold beginAttempt at h
  dsimp only at h
  split at h
  · simp at h
  · split at h
    · rename_i prepared _ _
      cases h
      exact ⟨(beginAttempt_tokens now prepared _ _ begun).1,
        (beginAttempt_frame now prepared _ _ begun).2.2.1, rfl,
        NodeRun.outputJson_recordTaskExecution _ _⟩
    · simp at h

/-- The stored row after a session has ended: it keeps the stored claim token, unless that is the
token of the session. -/
theorem find_finished
    {outcome : Except PyException NodeResult} {draw : ℚ} {settled nodes : NodeTable}
    (hsession : SessionSound id session) (hphase : session.InAttempt attempt)
    (hbase : base = session.row ∨ base = attempt.row)
    (hsettled : settle env now id s attempt outcome draw = some settled)
    (hnodes : NodeTable.flush (attempt.nodes.put id base) settled s.nodes = some nodes)
    (hrow : s.nodes.find id = some row) :
    ∃ row', (nodes.modify id (completeNode (some session.token))).find id = some row' ∧
      row'.claimToken = if row.claimToken = some session.token then none else row.claimToken := by
  obtain ⟨hkeeps, -, -, hexists⟩ := hsession.attempt attempt hphase
  obtain ⟨final, hfinal, hclaim⟩ := settle_find hsettled hexists
  obtain ⟨old, hold⟩ := isSome_iff_exists.mp hexists
  have hkept : base.KeepsClaim final := by
    rcases hbase with rfl | rfl
    · exact hkeeps.trans hclaim
    · exact hclaim
  have hflush := NodeTable.find_flush hnodes (find_put_self _ base hold) hfinal hrow
  refine ⟨completeNode (some session.token) (NodeRun.flush base final row), ?_, ?_⟩
  · rw [find_modify_self, hflush]
    rfl
  · have htoken := claimToken_flush hkept row
    unfold completeNode
    by_cases hheld : row.claimToken = some session.token
    · rw [if_pos hheld, if_pos (.inr (htoken.trans hheld))]
      rfl
    · rw [if_neg hheld, if_neg (by simpa [htoken] using hheld), htoken]

theorem Sound.effect (h : Sound id s) (heffect : Effect env id now s op s') : Sound id s' := by
  obtain ⟨row, hrow⟩ := isSome_iff_exists.mp h.row
  cases heffect with
  | idle => exact h
  | claimed old claimed hold _ _ =>
    refine ⟨?_, h.session⟩
    rw [find_put_self _ _ hold]
    rfl
  | recovered draw _ =>
    refine ⟨?_, h.session⟩
    rw [find_modify_self, hrow]
    rfl
  | delivered who token worker task loaded begun _ hloaded hbegun =>
    refine ⟨h.row, fun w session hsession ↦ ?_⟩
    dsimp only at hsession
    rw [update_apply] at hsession
    split_ifs at hsession
    · cases hsession
      obtain ⟨htoken, hkeeps, -⟩ := beginNodeExecution_tokens hbegun
      refine ⟨htoken, fun begun' hphase ↦ ?_, fun attempt hphase ↦ ?_⟩
      · obtain rfl := Phase.loaded.inj hphase
        exact ⟨hkeeps, outputJson_beginNodeExecution hbegun⟩
      · rcases hphase with hphase | hphase
        · simp at hphase
        · simp at hphase
    · exact h.session w session hsession
  | refused who session begun _ _ =>
    exact ⟨h.row, fun w session hsession ↦ h.session w session (open_of_close hsession).2⟩
  | entered who session begun attempt entries hsession hphase _ hattempt _ =>
    refine ⟨h.row, fun w session' hsession' ↦ ?_⟩
    rcases open_of_proceed hsession' with ⟨-, rfl⟩ | ⟨-, hother⟩
    · obtain ⟨htoken, hloaded, -⟩ := h.session who session hsession
      obtain ⟨hkeeps, houtput⟩ := hloaded begun hphase
      obtain ⟨hclaim, hrunning, hnodes, hsame⟩ := beginAttempt_eq_some hattempt
      refine ⟨htoken, fun begun' hphase' ↦ absurd hphase' (by simp), fun attempt' hphase' ↦ ?_⟩
      rcases hphase' with hphase' | hphase'
      · obtain rfl := Phase.executing.inj hphase'
        exact ⟨hkeeps.trans hclaim, hrunning, hsame.trans houtput, by rw [hnodes]; exact h.row⟩
      · simp at hphase'
    · exact h.session w session' hother
  | checkpointed who session attempt hsession hphase =>
    refine ⟨?_, fun w session' hsession' ↦ ?_⟩
    · rw [find_modify_self, hrow]
      rfl
    · rcases open_of_proceed hsession' with ⟨-, rfl⟩ | ⟨-, hother⟩
      · obtain ⟨htoken, -, hattempt⟩ := h.session who session hsession
        refine ⟨htoken, fun begun hphase' ↦ absurd hphase' (by simp), fun attempt' hphase' ↦ ?_⟩
        rcases hphase' with hphase' | hphase'
        · simp at hphase'
        · obtain rfl := Phase.checkpointed.inj hphase'
          exact hattempt attempt (.inl hphase)
      · exact h.session w session' hother
  | rolledBack who outcome draw session attempt _ _ =>
    exact ⟨h.row, fun w session hsession ↦ h.session w session (open_of_close hsession).2⟩
  | finished who outcome draw session attempt base settled nodes hsession hphase hbase hsettled
      hnodes =>
    obtain ⟨row', hrow', -⟩ :=
      find_finished (h.session who session hsession) hphase hbase hsettled hnodes hrow
    refine ⟨?_, fun w session hsession ↦ h.session w session (open_of_close hsession).2⟩
    change ((nodes.modify id (completeNode (some session.token))).find id).isSome
    rw [hrow']
    rfl
  | crashed who session lost _ _ =>
    exact ⟨h.row, fun w session hsession ↦ h.session w session (open_of_close hsession).2⟩

/-! ### The token of the row -/

def slot (id : RowId) (s : Workers) : TokenSlot :=
  ⟨(s.nodes.find id).bind NodeRun.claimToken, s.nextToken⟩

theorem slot_eq (hrow : s.nodes.find id = some row) :
    s.slot id = ⟨row.claimToken, s.nextToken⟩ := by
  rw [slot, hrow]
  rfl

theorem slot_keep {s : Workers} (hnodes : s'.nodes = s.nodes) (hnext : s.nextToken ≤ s'.nextToken) :
    (s.slot id).Step (s'.slot id) := by
  unfold slot
  rw [hnodes]
  exact .keep _ hnext

theorem Sound.slot_step (h : Sound id s) (heffect : Effect env id now s op s') : (s.slot id).Step (s'.slot id) := by
  obtain ⟨row, hrow⟩ := isSome_iff_exists.mp h.row
  cases heffect with
  | idle => exact slot_keep rfl le_rfl
  | claimed old claimed hold _ hclaimed =>
    rw [slot_eq hrow, slot_eq (find_put_self _ claimed hold), hclaimed]
    exact .issue _ _ le_rfl (Nat.lt_succ_self _)
  | recovered draw _ =>
    have hrecovered : (s.nodes.modify id (NodeRun.recover env now draw)).find id =
        some (row.recover env now draw) := by
      rw [find_modify_self, hrow]
      rfl
    rw [slot_eq hrow, slot_eq hrecovered, claimToken_recover]
    exact .clear _ le_rfl
  | delivered | refused => exact slot_keep rfl le_rfl
  | entered => exact slot_keep rfl (Nat.le_succ _)
  | checkpointed who session attempt hsession hphase =>
    have hkeeps := ((h.session who session hsession).attempt attempt (.inl hphase)).1
    have hflushed : (s.nodes.modify id (NodeRun.flush session.row attempt.row)).find id =
        some (NodeRun.flush session.row attempt.row row) := by
      rw [find_modify_self, hrow]
      rfl
    rw [slot_eq hrow, slot_eq hflushed, claimToken_flush hkeeps]
    exact .keep _ le_rfl
  | rolledBack => exact slot_keep rfl le_rfl
  | finished who outcome draw session attempt base settled nodes hsession hphase hbase hsettled
      hnodes =>
    obtain ⟨row', hrow', htoken⟩ :=
      find_finished (h.session who session hsession) hphase hbase hsettled hnodes hrow
    rw [slot_eq hrow, slot_eq hrow', htoken]
    split_ifs
    · exact .clear _ (Nat.le_succ _)
    · exact .keep _ (Nat.le_succ _)
  | crashed => exact slot_keep rfl le_rfl

/-! ### Sequences of steps -/

/-- Every step of the sequence is allowed in the state it meets. -/
def Permits (env : EngineEnv) (id : RowId) (allowed : Workers → WorkerOp → Prop) :
    List (Time × WorkerOp) → Workers → Prop
  | [], _ => True
  | (now, op) :: rest, s => allowed s op ∧ Permits env id allowed rest (s.apply env id now op)

/-- What every allowed step preserves holds after a sequence of them. -/
theorem Permits.invariant {allowed : Workers → WorkerOp → Prop} {P : Workers → Prop}
    (hstep : ∀ now op s, P s → allowed s op → P (s.apply env id now op))
    {calls : List (Time × WorkerOp)} {s : Workers} (h : Permits env id allowed calls s) (hs : P s) :
    P (s.play env id calls) := by
  induction calls generalizing s with
  | nil => exact hs
  | cons call rest ih =>
    obtain ⟨now, op⟩ := call
    exact ih h.2 (hstep now op s hs h.1)

/-- The step after the first ones is allowed in the state they lead to. -/
theorem Permits.at_step {allowed : Workers → WorkerOp → Prop} {before after : List (Time × WorkerOp)}
    {call : Time × WorkerOp} {s : Workers} (h : Permits env id allowed (before ++ call :: after) s) :
    Permits env id allowed before s ∧ allowed (s.play env id before) call.2 := by
  induction before generalizing s with
  | nil => exact ⟨trivial, h.1⟩
  | cons first rest ih =>
    obtain ⟨hrest, hstep⟩ := ih h.2
    exact ⟨⟨h.1, hrest⟩, hstep⟩

/-- Nobody works on the row, and the token it holds, if any, has been drawn. -/
structure Idle (id : RowId) (s : Workers) : Prop where
  row : (s.nodes.find id).isSome
  session : ∀ who, s.session who = none
  drawn : (s.slot id).Issued
  entries : s.entries = []
  lost : s.lost = []

theorem Idle.sound (h : Idle id s) : Sound id s where
  row := h.row
  session := fun who _ hsession ↦ absurd ((h.session who).symm.trans hsession) (by simp)

/-! ### One entry for each token -/

/-- The message of a claim is delivered again only when no delivery of it is open and none has been
lost in a crash after it entered `execute`. -/
def SettledBefore (s : Workers) : WorkerOp → Prop
  | .deliver _ token _ _ =>
    (∀ who session, s.session who = some session → session.token ≠ token) ∧ token ∉ s.lost
  | _ => True

/-- No token has been entered twice. A token that has been entered is the token of a session in its
attempt, was lost in a crash, or is off the row for good. -/
structure EnteredOnce (id : RowId) (s : Workers) : Prop where
  sound : Sound id s
  issued : (s.slot id).Issued
  drawn : ∀ who session, s.session who = some session → session.token < s.nextToken
  unique : ∀ who who' session session', s.session who = some session →
    s.session who' = some session' → session.token = session'.token → who = who'
  once : s.entries.Nodup
  fresh : ∀ who session begun, s.session who = some session → session.phase = .loaded begun →
    session.token ∉ s.entries
  settled : ∀ token ∈ s.entries,
    (∃ who session attempt, s.session who = some session ∧ session.token = token ∧
      session.InAttempt attempt) ∨ token ∈ s.lost ∨ TokenSlot.Retired token (s.slot id)

/-- A session is closed and its token, if it was entered, is accounted for. -/
theorem EnteredOnce.close {s : Workers} (h : EnteredOnce id s) (hsound : Sound id s')
    (hstep : (s.slot id).Step (s'.slot id))
    (hsession : s.session who = some session) (hclosed : s'.session = (s.close who).session)
    (hentries : s'.entries = s.entries) (hlost : ∀ token ∈ s.lost, token ∈ s'.lost)
    (haccount : session.token ∈ s.entries → session.token ∈ s'.lost ∨
      TokenSlot.Retired session.token (s'.slot id)) : EnteredOnce id s' := by
  have hopen : ∀ {w : ℕ} {other : Session}, s'.session w = some other →
      w ≠ who ∧ s.session w = some other := by
    intro w other hother
    rw [hclosed] at hother
    exact open_of_close hother
  refine ⟨hsound, h.issued.step hstep, fun w other hother ↦ ?_,
    fun w w' other other' hother hother' ↦ h.unique w w' other other' (hopen hother).2
      (hopen hother').2, by rw [hentries]; exact h.once, fun w other begun hother ↦ ?_,
    fun token htoken ↦ ?_⟩
  · exact lt_of_lt_of_le (h.drawn w other (hopen hother).2) hstep.next_le
  · rw [hentries]
    exact h.fresh w other begun (hopen hother).2
  · rw [hentries] at htoken
    rcases h.settled token htoken with ⟨w, other, attempt, hother, rfl, hphase⟩ | hmem | hretired
    · by_cases hw : w = who
      · subst hw
        obtain rfl := mem_unique hother hsession
        exact .inr (haccount htoken)
      · refine .inl ⟨w, other, attempt, ?_, rfl, hphase⟩
        rw [hclosed, session_close, if_neg hw, hother]
    · exact .inr (.inl (hlost token hmem))
    · exact .inr (.inr (hretired.step hstep))

/-- Steps that touch neither sessions nor entries. -/
theorem EnteredOnce.keep {s : Workers} (h : EnteredOnce id s) (hsound : Sound id s')
    (hstep : (s.slot id).Step (s'.slot id)) (hsession : s'.session = s.session)
    (hentries : s'.entries = s.entries) (hlost : s'.lost = s.lost) : EnteredOnce id s' := by
  refine ⟨hsound, h.issued.step hstep, ?_, ?_, ?_, ?_, ?_⟩
  · rw [hsession]
    exact fun who session hopen ↦ lt_of_lt_of_le (h.drawn who session hopen) hstep.next_le
  · rw [hsession]
    exact h.unique
  · rw [hentries]
    exact h.once
  · rw [hsession, hentries]
    exact h.fresh
  · rw [hsession, hentries, hlost]
    intro token htoken
    rcases h.settled token htoken with hopen | hmem | hretired
    · exact .inl hopen
    · exact .inr (.inl hmem)
    · exact .inr (.inr (hretired.step hstep))

theorem EnteredOnce.proceed {s : Workers} (h : EnteredOnce id s) (hsound : Sound id s')
    (hstep : (s.slot id).Step (s'.slot id))
    (hsession : s.session who = some session)
    (hproceed : s'.session = (s.proceed who session phase).session)
    (hphase : phase = .executing attempt ∨ phase = .checkpointed attempt)
    (hentries : s'.entries = s.entries ∨
      (s'.entries = session.token :: s.entries ∧ session.token ∉ s.entries))
    (hlost : s'.lost = s.lost) : EnteredOnce id s' := by
  have hopen : ∀ {w : ℕ} {other : Session}, s'.session w = some other →
      (w = who ∧ other = { session with phase := phase }) ∨ (w ≠ who ∧ s.session w = some other) := by
    intro w other hother
    rw [hproceed] at hother
    exact open_of_proceed hother
  have hmem : ∀ token ∈ s'.entries, token = session.token ∨ token ∈ s.entries := by
    intro token htoken
    rcases hentries with hsame | ⟨hcons, -⟩
    · exact .inr (hsame ▸ htoken)
    · exact mem_cons.mp (hcons ▸ htoken)
  -- the session under its token before the step, whatever its phase was
  have hbefore : ∀ {w : ℕ} {other : Session}, s'.session w = some other →
      ∃ old, s.session w = some old ∧ old.token = other.token := by
    intro w other hother
    rcases hopen hother with ⟨rfl, rfl⟩ | ⟨-, hold⟩
    · exact ⟨session, hsession, rfl⟩
    · exact ⟨other, hold, rfl⟩
  refine ⟨hsound, h.issued.step hstep, fun w other hother ↦ ?_, fun w w' other other' hother hother'
    htoken ↦ ?_, ?_, fun w other begun hother hloaded hin ↦ ?_, fun token hin ↦ ?_⟩
  · obtain ⟨old, hold, htoken⟩ := hbefore hother
    exact htoken ▸ lt_of_lt_of_le (h.drawn w old hold) hstep.next_le
  · obtain ⟨old, hold, hsame⟩ := hbefore hother
    obtain ⟨old', hold', hsame'⟩ := hbefore hother'
    exact h.unique w w' old old' hold hold' (hsame.trans (htoken.trans hsame'.symm))
  · rcases hentries with hsame | ⟨hcons, hfresh⟩
    · rw [hsame]
      exact h.once
    · rw [hcons]
      exact nodup_cons.mpr ⟨hfresh, h.once⟩
  · rcases hopen hother with ⟨-, rfl⟩ | ⟨hw, hold⟩
    · rcases hphase with rfl | rfl <;> exact absurd hloaded (by simp)
    · rcases hmem _ hin with htoken | hin
      · exact hw (h.unique w who other session hold hsession htoken)
      · exact h.fresh w other begun hold hloaded hin
  · have hown : s'.session who = some { session with phase := phase } := by
      rw [hproceed, session_proceed, if_pos rfl]
    rcases hmem token hin with rfl | hin
    · exact .inl ⟨who, _, attempt, hown, rfl, hphase⟩
    · rcases h.settled token hin with ⟨w, other, attempt', hother, rfl, hphase'⟩ | hin | hretired
      · by_cases hw : w = who
        · subst hw
          obtain rfl := mem_unique hother hsession
          exact .inl ⟨w, _, attempt, hown, rfl, hphase⟩
        · refine .inl ⟨w, other, attempt', ?_, rfl, hphase'⟩
          rw [hproceed, session_proceed, if_neg hw, hother]
      · exact .inr (.inl (hlost ▸ hin))
      · exact .inr (.inr (hretired.step hstep))

theorem EnteredOnce.effect (h : EnteredOnce id s)
    (heffect : Effect env id now s op s') (hallowed : SettledBefore s op) : EnteredOnce id s' := by
  have hsound := h.sound.effect heffect
  have hstep := h.sound.slot_step heffect
  obtain ⟨row, hrow⟩ := isSome_iff_exists.mp h.sound.row
  cases heffect with
  | idle => exact h
  | claimed | recovered => exact h.keep hsound hstep rfl rfl rfl
  | delivered who token worker task loaded begun hfree hloaded hbegun =>
    obtain rfl := mem_unique hrow hloaded
    obtain ⟨hheld, -, -⟩ := beginNodeExecution_tokens hbegun
    obtain ⟨hnone, hnotLost⟩ := hallowed
    -- the row holds the token, so it is not retired, and nothing else can have entered it
    have hfresh : token ∉ s.entries := by
      intro hmem
      rcases h.settled token hmem with ⟨w, session, attempt, hsession, htoken, -⟩ | hlost | hretired
      · exact hnone w session hsession htoken
      · exact hnotLost hlost
      · refine hretired.2 ?_
        rw [slot_eq hrow]
        exact hheld
    have hopen : ∀ {w : ℕ} {session : Session}, (update s.session who
        (some ⟨token, task, row, .loaded begun⟩)) w = some session →
        (w = who ∧ session = ⟨token, task, row, .loaded begun⟩) ∨
          (w ≠ who ∧ s.session w = some session) := by
      intro w session hsession
      rw [update_apply] at hsession
      split_ifs at hsession with hw
      · exact .inl ⟨hw, (Option.some.inj hsession).symm⟩
      · exact .inr ⟨hw, hsession⟩
    refine ⟨hsound, h.issued, fun w session hsession ↦ ?_, fun w w' session session' hsession
      hsession' htoken ↦ ?_, h.once, fun w session begun' hsession hphase ↦ ?_, fun other hother ↦ ?_⟩
    · rcases hopen hsession with ⟨-, rfl⟩ | ⟨-, hold⟩
      · refine h.issued token ?_
        rw [slot_eq hrow]
        exact hheld
      · exact h.drawn w session hold
    · rcases hopen hsession with ⟨rfl, rfl⟩ | ⟨hw, hold⟩
      · rcases hopen hsession' with ⟨rfl, rfl⟩ | ⟨-, hold'⟩
        · rfl
        · exact absurd htoken.symm (hnone w' session' hold')
      · rcases hopen hsession' with ⟨rfl, rfl⟩ | ⟨-, hold'⟩
        · exact absurd htoken (hnone w session hold)
        · exact h.unique w w' session session' hold hold' htoken
    · rcases hopen hsession with ⟨-, rfl⟩ | ⟨-, hold⟩
      · exact hfresh
      · exact h.fresh w session begun' hold hphase
    · rcases h.settled other hother with ⟨w, session, attempt, hsession, htoken, hphase⟩ | hrest
      · refine .inl ⟨w, session, attempt, ?_, htoken, hphase⟩
        have hw : w ≠ who := by
          rintro rfl
          exact absurd (hfree.symm.trans hsession) (by simp)
        dsimp only
        rw [update_apply, if_neg hw, hsession]
      · exact .inr hrest
  | refused who session begun hsession hphase =>
    exact h.close hsound hstep hsession rfl rfl (fun _ hmem ↦ hmem) fun hmem ↦
      absurd hmem (h.fresh who session begun hsession hphase)
  | entered who session begun attempt entries hsession hphase _ hattempt hentries =>
    refine h.proceed hsound hstep hsession rfl (.inl rfl) ?_ rfl
    rcases hentries with rfl | rfl
    · exact .inl rfl
    · exact .inr ⟨rfl, h.fresh who session begun hsession hphase⟩
  | checkpointed who session attempt hsession hphase =>
    exact h.proceed hsound hstep hsession rfl (.inr rfl) (.inl rfl) rfl
  | rolledBack who outcome draw session attempt hsession hphase =>
    exact h.close hsound hstep hsession rfl rfl (fun _ hmem ↦ mem_cons_of_mem _ hmem)
      fun _ ↦ .inl mem_cons_self
  | finished who outcome draw session attempt base settled nodes hsession hphase hbase hsettled
      hnodes =>
    refine h.close hsound hstep hsession rfl rfl (fun _ hmem ↦ hmem) fun _ ↦ .inr ?_
    obtain ⟨row', hrow', htoken⟩ :=
      find_finished (h.sound.session who session hsession) hphase hbase hsettled hnodes hrow
    refine ⟨lt_of_lt_of_le (h.drawn who session hsession) hstep.next_le, ?_⟩
    rw [slot_eq hrow', htoken]
    split_ifs with hheld
    · simp
    · exact hheld
  | crashed who session lost hsession hlost =>
    rcases hlost with ⟨begun, hphase, rfl⟩ | rfl
    · exact h.close hsound hstep hsession rfl rfl (fun _ hmem ↦ hmem) fun hmem ↦
        absurd hmem (h.fresh who session begun hsession hphase)
    · exact h.close hsound hstep hsession rfl rfl (fun _ hmem ↦ mem_cons_of_mem _ hmem)
        fun _ ↦ .inl mem_cons_self

theorem Idle.enteredOnce (h : Idle id s) : EnteredOnce id s where
  sound := h.sound
  issued := h.drawn
  drawn := fun who _ hsession ↦ absurd ((h.session who).symm.trans hsession) (by simp)
  unique := fun who _ _ _ hsession ↦ absurd ((h.session who).symm.trans hsession) (by simp)
  once := by
    rw [h.entries]
    exact nodup_nil
  fresh := fun who _ _ hsession ↦ absurd ((h.session who).symm.trans hsession) (by simp)
  settled := by
    rw [h.entries]
    simp

/-- The implementation is entered at most once for each claim token, in every sequence of steps by any
number of workers in which a message is delivered again only when the earlier deliveries of it have
ended, and none of them by losing its transaction after it entered. Assumes: nobody works on the row
at the start. -/
theorem entered_once (env : EngineEnv) (id : RowId) (start : Workers) (hidle : start.Idle id)
    (calls : List (Time × WorkerOp)) (hcalls : Permits env id SettledBefore calls start) (token : ℕ) :
    (start.play env id calls).entries.count token ≤ 1 := by
  have hinv : EnteredOnce id (start.play env id calls) :=
    hcalls.invariant (fun now op s hs hallowed ↦ hs.effect (apply_effect env id now s op) hallowed)
      hidle.enteredOnce
  exact nodup_iff_count_le_one.mp hinv.once token

end Workers

/-! ### Fenced results -/

def WorkerOp.worker : WorkerOp → Option ℕ
  | .claim | .recover _ => none
  | .deliver who _ _ _ | .enter who | .checkpoint who | .finish who _ _ | .crash who => some who

/-- The row keeps its status and output, and every other row its status. -/
structure KeepsResults (id : RowId) (t t' : NodeTable) : Prop where
  own : (t'.find id).map (fun row ↦ (row.status, row.outputJson)) =
    (t.find id).map fun row ↦ (row.status, row.outputJson)
  others : ∀ other, other ≠ id → (t'.find other).map NodeRun.status = (t.find other).map NodeRun.status

theorem KeepsResults.refl (id : RowId) (t : NodeTable) : KeepsResults id t t :=
  ⟨rfl, fun _ _ ↦ rfl⟩

theorem KeepsResults.trans {t t' t'' : NodeTable} (h : KeepsResults id t t')
    (h' : KeepsResults id t' t'') : KeepsResults id t t'' :=
  ⟨h'.own.trans h.own, fun other hother ↦ (h'.others other hother).trans (h.others other hother)⟩

/-- A step that writes the row alone, and neither its status nor its output. -/
theorem KeepsResults.modify {f : NodeRun → NodeRun} {t : NodeTable} (hrow : t.find id = some row)
    (hstatus : (f row).status = row.status) (houtput : (f row).outputJson = row.outputJson) :
    KeepsResults id t (t.modify id f) where
  own := by
    rw [find_modify_self, hrow, map_some, map_some, map_some, hstatus, houtput]
  others := fun other hother ↦ by rw [find_modify_of_ne t f hother]

/-- A session that has changed its own row alone writes no other. -/
theorem KeepsResults.flush {base final : NodeRun} {t nodes : NodeTable}
    (h : NodeTable.flush (t.put id base) (t.put id final) stored = some nodes)
    (hexists : (t.find id).isSome) (hrow : stored.find id = some row)
    (hstatus : final.status = base.status ∨ final.status = row.status)
    (houtput : final.outputJson = base.outputJson) : KeepsResults id stored nodes where
  own := by
    obtain ⟨old, hold⟩ := isSome_iff_exists.mp hexists
    have hflush := NodeTable.find_flush h (find_put_self _ base hold) (find_put_self _ final hold) hrow
    have hkeptStatus : (NodeRun.flush base final row).status = row.status :=
      flushColumn_eq_stored_iff.mpr hstatus
    have hkeptOutput : (NodeRun.flush base final row).outputJson = row.outputJson :=
      flushColumn_eq_stored_iff.mpr (.inl houtput)
    rw [hflush, hrow, map_some, map_some, hkeptStatus, hkeptOutput]
  others := fun other hother ↦ by
    have hsame : ∀ row, (t.put id row).find other = t.find other := fun row ↦
      find_modify_of_ne t _ hother
    cases hnew : nodes.find other with
    | none =>
      have hnone : stored.find other = none := by
        by_contra hsome
        have := NodeTable.isSome_find_flush h (isSome_iff_ne_none.mpr hsome)
        rw [hnew] at this
        exact absurd this (by simp)
      rw [hnone]
    | some row' =>
      rcases NodeTable.find_flush_cases h hnew with
        hold | ⟨old, loaded, changed, hold, hloaded, hchanged, rfl⟩ | ⟨hloaded, hchanged⟩
      · rw [hold]
      · rw [hsame] at hloaded hchanged
        obtain rfl := mem_unique hloaded hchanged
        rw [hold, map_some, map_some]
        exact congrArg some (flushColumn_unchanged _ _)
      · rw [hsame] at hloaded hchanged
        exact absurd (hloaded.symm.trans hchanged) (by simp)

theorem status_completeNode (token : Option ℕ) (row : NodeRun) :
    (completeNode token row).status = row.status ∧
      (completeNode token row).outputJson = row.outputJson := by
  unfold completeNode
  split_ifs <;> exact ⟨rfl, rfl⟩

/-- The status in which an exception of the implementation leaves the row. -/
def Attempt.statusAfter (attempt : Attempt) (exc : PyException) : NodeStatus :=
  if shouldRetry (classifyException exc).value attempt.row.attempt attempt.prepared.impl.retryPolicy then
    .ready
  else .failed

/-- An exception of the implementation is the failure of the attempt. -/
theorem judgeNode_error {run : Run} {graphNode : GraphNode} {prepared : Prepared}
    (h : reachesImplementation env run graphNode prepared) (exc : PyException) :
    judgeNode env run graphNode prepared (.error exc) =
      .ok (.failure [("code", .str "execute_error"), ("message", .str exc.message)]
        (classifyException exc).value) := by
  unfold reachesImplementation at h
  rw [Bool.and_eq_true, Bool.and_eq_true, Bool.and_eq_true] at h
  obtain ⟨⟨⟨hinputs, hconfig⟩, hmock⟩, hexecutable⟩ := h
  have hperform : performNode env run graphNode prepared (.error exc) = .error exc := by
    unfold performNode
    cases hvalid : prepared.impl.validateInputs prepared.inputs with
    | error _ => simp [hvalid, Except.isOk, Except.toBool] at hinputs
    | ok _ =>
      cases hvalid' : prepared.impl.validateConfig (resolvedConfig run graphNode) with
      | error _ => simp [hvalid', Except.isOk, Except.toBool] at hconfig
      | ok _ =>
        rw [isNone_iff_eq_none.mp hmock]
        simp [bind, Except.bind, hexecutable]
  unfold judgeNode
  rw [hperform]

namespace Workers

/-- A worker whose token is off the row, cleared or replaced, changes no result with its step. -/
def Fenced (env : EngineEnv) (id : RowId) (now : Time) (s : Workers) (op : WorkerOp) : Prop :=
  ∀ who session, op.worker = some who → s.session who = some session →
    (s.nodes.find id).bind NodeRun.claimToken ≠ some session.token →
    KeepsResults id s.nodes (s.apply env id now op).nodes

/-- A worker whose token is off the row commits half way only when the row is `RUNNING`, or was when the
worker loaded it, and ends only with an exception of the implementation, on a row that is in the status
such an exception leaves. -/
def Harmless (env : EngineEnv) (id : RowId) (s : Workers) (op : WorkerOp) : Prop :=
  ∀ who session row, op.worker = some who → s.session who = some session →
    s.nodes.find id = some row → row.claimToken ≠ some session.token →
    match op with
    | .checkpoint _ => session.row.status = .running ∨ row.status = .running
    | .finish _ outcome _ => ∀ attempt, session.InAttempt attempt → ∃ exc, outcome = .error exc ∧
        reachesImplementation env s.run attempt.graphNode attempt.prepared ∧
        row.status = attempt.statusAfter exc
    | _ => True

theorem harmless_of_held (hwho : op.worker = some who)
    (hheld : (s.session who).map Session.token = (s.nodes.find id).bind NodeRun.claimToken) :
    Harmless env id s op := by
  intro other session row hother hsession hrow hlost
  obtain rfl := mem_unique hwho hother
  rw [hsession, hrow] at hheld
  exact absurd hheld.symm hlost

/-- What a session settles when the implementation raises: the failure on its row, and nothing else. -/
theorem settle_error {exc : PyException} {draw : ℚ} {settled : NodeTable}
    (h : settle env now id s attempt (.error exc) draw = some settled)
    (hreaches : reachesImplementation env s.run attempt.graphNode attempt.prepared) :
    ∃ final, settled = attempt.nodes.put id final ∧ final.status = attempt.statusAfter exc ∧
      final.outputJson = attempt.row.outputJson := by
  unfold settle at h
  rw [judgeNode_error hreaches] at h
  cases h
  refine ⟨_, NodeTable.put_put _ _ _ _, ?_, (persistFailure_frame _ _ _ _ _ _ _).2.2.2⟩
  unfold persistFailure Attempt.statusAfter
  split_ifs <;> rfl

/-- A harmless step of a worker without its token. -/
theorem Sound.fenced (h : Sound id s) (hharmless : Harmless env id s op) : Fenced env id now s op := by
  intro who session hwho hsession hlost
  obtain ⟨row, hrow⟩ := isSome_iff_exists.mp h.row
  rw [hrow] at hlost
  have hallowed := hharmless who session row hwho hsession hrow hlost
  have heffect := apply_effect env id now s op
  generalize s.apply env id now op = s' at heffect
  cases heffect with
  | idle => exact .refl _ _
  | claimed | recovered => simp [WorkerOp.worker] at hwho
  | delivered | refused | entered | rolledBack | crashed => exact .refl _ _
  | checkpointed worker delivery attempt hopen hphase =>
    obtain rfl := Option.some.inj hwho
    obtain rfl := mem_unique hopen hsession
    obtain ⟨-, hrunning, houtput, -⟩ := (h.session worker delivery hopen).attempt attempt (.inl hphase)
    refine .modify hrow (flushColumn_eq_stored_iff.mpr ?_)
      (flushColumn_eq_stored_iff.mpr (.inl houtput))
    rw [hrunning]
    exact hallowed.imp Eq.symm Eq.symm
  | finished worker outcome draw delivery attempt base settled nodes hopen hphase hbase hsettled hnodes =>
    obtain rfl := Option.some.inj hwho
    obtain rfl := mem_unique hopen hsession
    obtain ⟨-, hrunning, houtput, hexists⟩ := (h.session worker delivery hopen).attempt attempt hphase
    obtain ⟨exc, rfl, hreaches, hstatus⟩ := hallowed attempt hphase
    obtain ⟨final, rfl, hfinal, hkept⟩ := settle_error hsettled hreaches
    have hbaseOutput : final.outputJson = base.outputJson := by
      rcases hbase with rfl | rfl
      · exact hkept.trans houtput
      · exact hkept
    have hflushed := KeepsResults.flush hnodes hexists hrow (.inr (hfinal.trans hstatus.symm)) hbaseOutput
    obtain ⟨row', hrow'⟩ := isSome_iff_exists.mp
      (NodeTable.isSome_find_flush hnodes (isSome_iff_exists.mpr ⟨_, hrow⟩))
    obtain ⟨hsame, hsame'⟩ := status_completeNode (some delivery.token) row'
    exact hflushed.trans (.modify hrow' hsame hsame')

end Workers

/-! ### Two workers on a publish node -/

/-- A publish node behind a trigger. -/
def publishGraph : WorkflowGraph where
  schemaVersion := 2
  nodes := [{ id := "t", type := "manual_trigger" }, { id := "p", type := "publish" }]
  edges := [{ source := "t", target := "p" }]

def publishEnv : EngineEnv := catalogueEnv publishGraph repairedGlobals

/-- The run in which the trigger has succeeded and the publish node is claimed under the token 2. -/
def publishRun : EngineState :=
  publishEnv.play
    [(1, execSucceeds "t" "" 0 [("payload", .obj []), ("trigger_type", .str "manual_trigger")])]
    (startRun publishEnv 0 .inline [] [])

/-- The workers before the message of the claim is delivered. -/
def publishWorkers : Workers where
  run := publishRun.run
  nodes := publishRun.nodes
  nextToken := publishRun.nextToken

def published : Except PyException NodeResult :=
  .ok
    { status := .succeeded
      output := [("job_ids", .arr [.str "job"]), ("statuses", .arr [.str "succeeded"]),
        ("dry_run", .bool false), ("content_variant_ids", .arr [])] }

theorem publishWorkers_idle : publishWorkers.Idle ⟨"p", ""⟩ where
  row := by decide +kernel
  session := fun _ ↦ rfl
  drawn := by
    intro token htoken
    have hheld : (publishWorkers.slot ⟨"p", ""⟩).holder = some 2 := by decide +kernel
    have hnext : (publishWorkers.slot ⟨"p", ""⟩).next = 3 := by decide +kernel
    rw [hheld] at htoken
    rw [hnext, ← Option.some.inj htoken]
    decide
  entries := rfl
  lost := rfl

/-- One delivery executes the node, and commits half way. -/
def oneDelivery : List (Time × WorkerOp) :=
  [(2, .deliver 0 2 none none), (2, .enter 0), (3, .checkpoint 0)]

/-- The lease runs out after the worker has committed half way. -/
def recovered : List (Time × WorkerOp) := oneDelivery ++ [(1000000000, .recover 0)]

def timedOut : PyException := { className := "TimeoutError", message := "timed out" }

/-- A single delivery enters the node once. -/
theorem oneDelivery_entered_once :
    (publishWorkers.play publishEnv ⟨"p", ""⟩ oneDelivery).entries.count 2 ≤ 1 :=
  Workers.entered_once publishEnv ⟨"p", ""⟩ publishWorkers publishWorkers_idle oneDelivery
    ⟨⟨fun _ _ hsession ↦ absurd hsession (by simp [publishWorkers]), by simp [publishWorkers]⟩,
      trivial, trivial, trivial⟩ 2

/-- The row is claimed again after that. -/
def reclaimed : List (Time × WorkerOp) := recovered ++ [(2000000000, .claim)]

/-- The message is delivered twice before the first delivery commits. -/
def twoDeliveries : List (Time × WorkerOp) :=
  [(2, .deliver 0 2 none none), (2, .deliver 1 2 none none), (3, .enter 0), (4, .finish 0 published 0),
    (5, .enter 1)]

/-- The publish node is entered twice under one token, well within the lease. -/
theorem publish_entered_twice :
    graphValid catalogue (fun _ ↦ []) publishGraph { socialAccountIds := ["account"] } ∧
      Reachable publishEnv anyOp publishRun ∧ publishWorkers.Idle ⟨"p", ""⟩ ∧
      (publishWorkers.play publishEnv ⟨"p", ""⟩ twoDeliveries).entries.count 2 = 2 :=
  ⟨by decide +kernel, reachable_play 0 .inline [] [] (permits_anyOp _ _ _), publishWorkers_idle,
    by decide +kernel⟩

end ContentGenerator.Workflows
