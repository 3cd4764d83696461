import ContentGenerator.Lib.Play
import ContentGenerator.Workflows.Workers

/-!
# Cancellation and the workers that are under way

`cancel_run` loads the run with its rows, marks the rows it has loaded and writes what it has changed, all
pending waits and the status of the run. A row that a worker has locked is written when the lock is free, so
the marks go to what the worker has left. A worker in turn works on rows it has loaded before, and at the end
rereads the run and looks at its own row only. `CancelOp` has the moments of both, for any number of workers.

Main results: `cancellation_final`, a cancellation is final when the workers it finds under way have
nothing to hand on and it has loaded every active row; `cancelled_successor_ready`, a worker under way
makes a row of a cancelled run ready.
-/

namespace ContentGenerator.Workflows

open Lib List Option NodeTable Function Relation
open KeyedTable (find_mapValues find_modify_of_ne find_modify_self)

/-! ### Sessions -/

/-- How far a delivery has come: the claim has been checked; the node is executing and its row is locked;
the implementation has committed the session. The second phase says whether the implementation has been
entered. -/
inductive DeliveryPhase
  | loaded (begun : NodeRun)
  | executing (attempt : Attempt) (entered : Bool)
  | checkpointed (attempt : Attempt)

/-- The session of a delivery: the row and the token of its message, the task it is recorded under, and
the run and the row as they were loaded. -/
structure Delivery where
  row : RowId
  token : ℕ
  taskExecutionId : Option ℕ
  run : Run
  base : NodeRun
  phase : DeliveryPhase

/-- An open transaction: a delivery, or a cancellation that has loaded the run with its rows. -/
inductive CancelSession
  | delivery (delivery : Delivery)
  | cancelling (run : Run) (nodes : NodeTable)

/-- What is committed, the open transactions, the locked rows with those who have locked them, whether a
cancellation has been committed, and the rows whose node has been entered since. -/
structure CancelState where
  st : EngineState
  session : ℕ → Option CancelSession := fun _ ↦ none
  lock : RowId → Option ℕ := fun _ ↦ none
  cancelled : Bool := false
  lateEntries : List RowId := []

/-- A step of a delivery, of a cancellation, or an `advance`. -/
inductive CancelOp
  | deliver (who : ℕ) (row : RowId) (token : ℕ) (workerTaskId : Option String)
      (taskExecutionId : Option ℕ)
  | enter (who : ℕ)
  | checkpoint (who : ℕ)
  | finish (who : ℕ) (outcome : Except PyException NodeResult) (draw : ℚ)
  | crash (who : ℕ)
  | advance
  | loadCancel (who : ℕ)
  | commitCancel (who : ℕ)

def CancelOp.who : CancelOp → Option ℕ
  | .advance => none
  | .deliver who _ _ _ _ | .enter who | .checkpoint who | .finish who _ _ | .crash who
  | .loadCancel who | .commitCancel who => some who

/-- The row waits for a worker, or a worker or an event for it. -/
def NodeStatus.isActive (status : NodeStatus) : Bool :=
  status = .ready ∨ status = .queued ∨ status = .running ∨ status = .waiting

namespace CancelState

/-! ### What the transactions write -/

/-- The transaction is over, and its locks are free. -/
def close (s : CancelState) (who : ℕ) : CancelState :=
  { s with
    session := update s.session who none
    lock := fun id ↦ if s.lock id = some who then none else s.lock id }

def proceed (s : CancelState) (who : ℕ) (delivery : Delivery) (phase : DeliveryPhase) : CancelState :=
  { s with
    session := update s.session who (some (.delivery { delivery with phase := phase })) }

def beginAttempt (env : EngineEnv) (now : Time) (s : CancelState) (delivery : Delivery)
    (begun : NodeRun) : Option Attempt :=
  Workers.beginAttempt env now delivery.row
    { run := delivery.run, nodes := s.st.nodes, nextToken := s.st.nextToken }
    { token := delivery.token
      taskExecutionId := delivery.taskExecutionId
      row := delivery.base
      phase := .loaded begun }
    begun

/-- What a delivery has made of the rows it has loaded, with the waits and messages it has added. -/
def settle (env : EngineEnv) (now : Time) (s : CancelState) (delivery : Delivery) (attempt : Attempt)
    (outcome : Except PyException NodeResult) (draw : ℚ) : Option Executed :=
  match judgeNode env delivery.run attempt.graphNode attempt.prepared outcome with
  | .error _ => none
  | .ok verdict =>
    some (handOn env now attempt.graphNode.type (recordOutcome env now draw delivery.row attempt.row
      attempt.prepared.impl.retryPolicy
      { state :=
          { s.st with
            run := delivery.run
            nodes := attempt.nodes.put delivery.row attempt.row }
        nodeOutputs := attempt.prepared.nodeOutputs } verdict))

/-- The rows a delivery ends with: a cancellation of the run it rereads is honoured in its own row. -/
def honoured (s : CancelState) (delivery : Delivery) (done : Executed) : NodeTable :=
  done.state.nodes.modify delivery.row (NodeRun.honourCancellation s.st.run)

/-- The end of a delivery whose row was `base` when it was last loaded or committed. A delivery that
raises is rolled back. -/
def finishWith (env : EngineEnv) (now : Time) (s : CancelState) (who : ℕ) (delivery : Delivery)
    (attempt : Attempt) (base : NodeRun) (outcome : Except PyException NodeResult) (draw : ℚ) :
    CancelState :=
  match s.settle env now delivery attempt outcome draw with
  | none => s.close who
  | some done =>
    match flush (attempt.nodes.put delivery.row base) (s.honoured delivery done) s.st.nodes with
    | none => s.close who
    | some nodes =>
      let run : Run :=
        { s.st.run with
          contextSnapshot := delivery.run.contextSnapshot.set "node_outputs"
            (.obj done.nodeOutputs) }
      { s with
        st :=
          { done.state with
            run := finalizeRunStatus env.render now run (s.honoured delivery done)
            nodes := nodes.modify delivery.row (completeNode (some delivery.token)) } }.close who

def cancelRows (now : Time) (loaded stored : NodeTable) : NodeTable :=
  stored.mapValues fun id row ↦
    match loaded.find id with
    | some base => NodeRun.flush base (base.cancel now) row
    | none => row

/-- `_cancel_pending_waits` on one wait. -/
def cancelWait (now : Time) (wait : Wait) : Wait :=
  if wait.status = .pending then
    { wait with
      status := .cancelled
      resolvedAt := some now
      resolvedOutcome := some "cancelled" }
  else wait

/-- `cancel_run` changes the row. -/
def marksRow (row : NodeRun) : Bool :=
  match row.status with
  | .succeeded | .skipped => false
  | .cancelled => !row.cancellationRequested
  | _ => true

def waitsForLock (s : CancelState) (nodes : NodeTable) : Bool :=
  nodes.entries.any fun entry ↦ (s.lock entry.1).isSome && marksRow entry.2

def commitCancel (now : Time) (s : CancelState) (who : ℕ) (run : Run) (nodes : NodeTable) :
    CancelState :=
  { s with
    st :=
      { s.st with
        nodes := cancelRows now nodes s.st.nodes
        waits := s.st.waits.map (cancelWait now)
        run :=
          { s.st.run with
            status := .cancelled
            finishedAt := flushColumn run.finishedAt (some now) s.st.run.finishedAt
            errorMessage := flushColumn run.errorMessage
              ((run.errorMessage.filter (· ≠ "")).or (some "cancelled by operator"))
              s.st.run.errorMessage } }
    cancelled := true }.close who

/-- The step. A step the transaction is not ready for, or that waits for a lock, does nothing. The run
that is read again before the node is entered is the one that the session has loaded. -/
def apply (env : EngineEnv) (s : CancelState) : Time × CancelOp → CancelState
  | (now, .deliver who id token worker task) =>
    match s.session who, s.st.nodes.find id with
    | none, some row =>
      if s.st.run.status.isTerminal then
        let held := if row.claimToken = some token then some token else none
        if (row.status = .queued ∨ row.status = .running ∨ row.status = .ready) ∧ (s.lock id).isNone then
          { s with st.nodes := s.st.nodes.put id (row.abort now held) }
        else s
      else
        match beginNodeExecution env.claimLease now token worker task row with
        | none => s
        | some begun =>
          let delivery : Delivery :=
            { row := id, token, taskExecutionId := task
              run := s.st.run
              base := row
              phase := .loaded begun }
          { s with session := update s.session who (some (.delivery delivery)) }
    | _, _ => s
  | (now, .enter who) =>
    match s.session who with
    | some (.delivery delivery) =>
      match delivery.phase with
      | .loaded begun =>
        if (s.lock delivery.row).isSome then s
        else
          match s.beginAttempt env now delivery begun with
          | none => s.close who
          | some attempt =>
            let entered := reachesImplementation env delivery.run attempt.graphNode attempt.prepared
            { s.proceed who delivery (.executing attempt entered) with
              lock := update s.lock delivery.row (some who)
              st.nextToken := s.st.nextToken + 1
              lateEntries := if s.cancelled && entered then delivery.row :: s.lateEntries else s.lateEntries }
      | _ => s
    | _ => s
  | (_, .checkpoint who) =>
    match s.session who with
    | some (.delivery delivery) =>
      match delivery.phase with
      | .executing attempt true =>
        { s.proceed who delivery (.checkpointed attempt) with
          st.nodes := s.st.nodes.modify delivery.row (NodeRun.flush delivery.base attempt.row)
          lock := update s.lock delivery.row none }
      | _ => s
    | _ => s
  | (now, .finish who outcome draw) =>
    match s.session who with
    | some (.delivery delivery) =>
      match delivery.phase with
      | .executing attempt _ => s.finishWith env now who delivery attempt delivery.base outcome draw
      | .checkpointed attempt =>
        if (s.lock delivery.row).isSome then s
        else s.finishWith env now who delivery attempt attempt.row outcome draw
      | .loaded _ => s
    | _ => s
  | (_, .crash who) => s.close who
  | (now, .advance) => { s with st := Workflows.advance env now s.st }
  | (_, .loadCancel who) =>
    match s.session who with
    | none =>
      if s.st.run.status = .succeeded ∨ s.st.run.status = .cancelled then s
      else
        { s with session := update s.session who (some (.cancelling s.st.run s.st.nodes)) }
    | some _ => s
  | (now, .commitCancel who) =>
    match s.session who with
    | some (.cancelling run nodes) =>
      if s.waitsForLock nodes then s else s.commitCancel now who run nodes
    | _ => s

/-! ### Final cancellations -/

def NoDelivery (s : CancelState) : Prop :=
  ∀ who delivery, s.session who ≠ some (.delivery delivery)

/-- After a cancellation the run stays cancelled and no node has been entered, and once the deliveries have
ended no row is active and no wait is pending. -/
structure Final (s : CancelState) : Prop where
  run : s.cancelled → s.st.run.status = .cancelled
  entered : s.lateEntries = []
  rows : s.cancelled → s.NoDelivery → ∀ id row, s.st.nodes.find id = some row → ¬ row.status.isActive
  waits : s.cancelled → s.NoDelivery → ∀ wait ∈ s.st.waits, wait.status ≠ .pending

def LeavesRow (s : CancelState) (delivery : Delivery) : Prop :=
  ∀ attempt row, delivery.phase = .checkpointed attempt → s.st.nodes.find delivery.row = some row →
    ¬ row.status.isActive

/-- The implementation, or the mock in its place, gives the result. -/
def Gives (env : EngineEnv) (delivery : Delivery) (attempt : Attempt)
    (outcome : Except PyException NodeResult) (result : NodeResult) : Prop :=
  outcome = .ok result ∨
    env.maybeMockNodeResult attempt.graphNode.type attempt.prepared.inputs
      delivery.run.contextSnapshot = some result

/-- Nothing follows the result: it is no pause that is recorded as a wait, and a success or a skip has no
successors, or meets a plain unlock among rows none of which was loaded as pending. -/
structure NothingFollows (env : EngineEnv) (delivery : Delivery) (attempt : Attempt)
    (result : NodeResult) : Prop where
  pause : result.status = .waiting → attempt.row.nodeType ∉ ["delay", "wait", "approval"] ∧
    result.waitingReason ∉ [some "delay_until", some "event_pending", some "approval_pending"]
  next : result.status = .succeeded ∨ result.status = .skipped →
    env.graph.successors delivery.row.nodeId = [] ∨
      attempt.graphNode.type ≠ "fan_out" ∧ delivery.row.iterationKey = "" ∧
        ∀ id row, id ≠ delivery.row → attempt.nodes.find id = some row → row.status ≠ .pending

/-- What keeps a cancellation final. Once it is committed, a delivery that has loaded its row before does
not begin its attempt, one that ends has a result that nothing follows, and one that crashes leaves no
active row. When it is committed, it has loaded every active row as one that has not settled. -/
def KeepsFinal (env : EngineEnv) (s : CancelState) : Time × CancelOp → Prop
  | (_, .enter who) => s.cancelled → ∀ delivery begun, s.session who = some (.delivery delivery) →
      delivery.phase ≠ .loaded begun
  | (_, .finish who outcome _) => s.cancelled → ∀ delivery attempt,
      s.session who = some (.delivery delivery) →
        ((∃ entered, delivery.phase = .executing attempt entered) ∨
          delivery.phase = .checkpointed attempt) →
        ∀ result, Gives env delivery attempt outcome result → NothingFollows env delivery attempt result
  | (_, .crash who) => s.cancelled → ∀ delivery, s.session who = some (.delivery delivery) →
      s.LeavesRow delivery
  | (_, .commitCancel who) => ¬ s.cancelled → ∀ run nodes,
      s.session who = some (.cancelling run nodes) → ¬ s.waitsForLock nodes →
        ∀ id row, s.st.nodes.find id = some row → row.status.isActive →
          ∃ loaded, nodes.find id = some loaded ∧ ¬ loaded.status.isSuccess ∧
            loaded.status ≠ .cancelled
  | _ => True

/-! ### What is known about deliveries -/

variable {env : EngineEnv} {now : Time} {s s' : CancelState} {who : ℕ}

/-- The row was claimed when it was loaded, and the attempt runs on a row that was there. -/
structure DeliverySound (delivery : Delivery) : Prop where
  base : delivery.base.status.isClaimed
  attempt : ∀ attempt, (∃ entered, delivery.phase = .executing attempt entered) ∨
    delivery.phase = .checkpointed attempt →
      attempt.row.status = .running ∧ (attempt.nodes.find delivery.row).isSome

/-- A delivery whose implementation has committed the session is at the row. -/
def InFlight (s : CancelState) (id : RowId) : Prop :=
  ∃ who delivery attempt, s.session who = some (.delivery delivery) ∧ delivery.row = id ∧
    delivery.phase = .checkpointed attempt

/-- A cancelled run has no pending waits, and the active rows are those of deliveries in flight. -/
structure Sound (s : CancelState) : Prop where
  delivery : ∀ who delivery, s.session who = some (.delivery delivery) →
    DeliverySound delivery ∧ (s.st.nodes.find delivery.row).isSome
  run : s.cancelled → s.st.run.status = .cancelled
  entered : s.lateEntries = []
  rows : s.cancelled → ∀ id row, s.st.nodes.find id = some row → row.status.isActive → s.InFlight id
  waits : s.cancelled → ∀ wait ∈ s.st.waits, wait.status ≠ .pending

/-- Then the cancellation is final. -/
theorem Sound.final (h : s.Sound) : s.Final where
  run := h.run
  entered := h.entered
  rows := by
    intro hcancelled hnone id row hrow hactive
    obtain ⟨who, delivery, attempt, hsession, -⟩ := h.rows hcancelled id row hrow hactive
    exact hnone who delivery hsession
  waits := fun hcancelled _ ↦ h.waits hcancelled

theorem session_close (s : CancelState) (who other : ℕ) :
    (s.close who).session other = if other = who then none else s.session other := by
  unfold close
  dsimp only
  rw [update_apply]

/-- A transaction ends that leaves no active row behind. -/
theorem Sound.close (h : s.Sound)
    (hleaves : s.cancelled → ∀ delivery, s.session who = some (.delivery delivery) →
      s.LeavesRow delivery) : (s.close who).Sound := by
  refine ⟨fun other delivery hsession ↦ ?_, h.run, h.entered, fun hcancelled id row hrow hactive ↦ ?_,
    h.waits⟩
  · rw [session_close] at hsession
    split_ifs at hsession
    exact h.delivery other delivery hsession
  · obtain ⟨other, delivery, attempt, hsession, hid, hphase⟩ := h.rows hcancelled id row hrow hactive
    have hne : other ≠ who := by
      rintro rfl
      subst hid
      exact hleaves hcancelled delivery hsession attempt row hphase hrow hactive
    exact ⟨other, delivery, attempt, (session_close s who other).trans ((if_neg hne).trans hsession), hid,
      hphase⟩

/-- A step that writes no row and closes no delivery in flight. -/
theorem Sound.of_session (h : s.Sound) (hnodes : s'.st.nodes = s.st.nodes)
    (hrun : s'.st.run = s.st.run) (hwaits : s'.st.waits = s.st.waits)
    (hcancelled : s'.cancelled = s.cancelled) (hlate : s'.lateEntries = s.lateEntries)
    (hdelivery : ∀ other delivery, s'.session other = some (.delivery delivery) →
      s.session other = some (.delivery delivery) ∨
        DeliverySound delivery ∧ (s.st.nodes.find delivery.row).isSome)
    (hflight : ∀ other delivery attempt, s.session other = some (.delivery delivery) →
      delivery.phase = .checkpointed attempt → s'.session other = some (.delivery delivery)) :
    s'.Sound where
  delivery := by
    intro other delivery hsession
    rw [hnodes]
    rcases hdelivery other delivery hsession with hbefore | hnew
    · exact h.delivery other delivery hbefore
    · exact hnew
  run := by
    rw [hcancelled, hrun]
    exact h.run
  entered := hlate.trans h.entered
  rows := by
    rw [hcancelled, hnodes]
    intro hdone id row hrow hactive
    obtain ⟨other, delivery, attempt, hsession, hid, hphase⟩ := h.rows hdone id row hrow hactive
    exact ⟨other, delivery, attempt, hflight other delivery attempt hsession hphase, hid, hphase⟩
  waits := by
    rw [hcancelled, hwaits]
    exact h.waits

variable {delivery : Delivery} {base row : NodeRun} {id : RowId} {attempt : Attempt}
  {outcome : Except PyException NodeResult} {draw : ℚ} {done : Executed}

/-- A delivery comes further that is not in flight yet. -/
theorem Sound.proceed (h : s.Sound) (hsession : s.session who = some (.delivery delivery))
    (hphase : ∀ attempt, delivery.phase ≠ .checkpointed attempt) {phase : DeliveryPhase}
    (hsound : DeliverySound { delivery with phase := phase }) (lock : RowId → Option ℕ) (next : ℕ) :
    Sound { s.proceed who delivery phase with lock := lock, st.nextToken := next } := by
  refine h.of_session rfl rfl rfl rfl rfl (fun other opened hopened ↦ ?_)
    fun other opened attempt hopened hcheckpointed ↦ ?_
  · change update s.session who _ other = _ at hopened
    rw [update_apply] at hopened
    split_ifs at hopened
    · obtain rfl := CancelSession.delivery.inj (Option.some.inj hopened)
      exact .inr ⟨hsound, (h.delivery who delivery hsession).2⟩
    · exact .inl hopened
  · change update s.session who _ other = _
    rw [update_apply]
    split_ifs with hother
    · subst hother
      obtain rfl := CancelSession.delivery.inj (mem_unique hsession hopened)
      exact absurd hcheckpointed (hphase attempt)
    · exact hopened

/-- A transaction begins that is not a delivery in flight. -/
theorem Sound.begin (h : s.Sound) (hfree : s.session who = none) {session : CancelSession}
    (hsound : ∀ delivery, session = .delivery delivery →
      DeliverySound delivery ∧ (s.st.nodes.find delivery.row).isSome) :
    Sound { s with session := update s.session who (some session) } := by
  refine h.of_session rfl rfl rfl rfl rfl (fun other opened hopened ↦ ?_)
    fun other opened attempt hopened _ ↦ ?_
  · dsimp only at hopened
    rw [update_apply] at hopened
    split_ifs at hopened
    · exact .inr (hsound opened (Option.some.inj hopened))
    · exact .inl hopened
  · dsimp only
    rw [update_apply]
    split_ifs with hother
    · rw [hother, hfree] at hopened
      simp at hopened
    · exact hopened

/-! ### Deliveries -/

theorem NodeStatus.ne_of_isClaimed {status : NodeStatus} (h : status.isClaimed) :
    status ≠ .succeeded ∧ status ≠ .cancelled := by
  revert h
  cases status <;> decide

/-- A delivery to a run that is over cancels its row. -/
theorem status_abort (token : Option ℕ) (hrow : row.status ≠ .succeeded) :
    (row.abort now token).status = .cancelled := by
  unfold NodeRun.abort completeNode
  simp only [if_neg hrow]
  split_ifs <;> rfl

/-- A delivery to a run that is over. -/
theorem Sound.aborted (h : s.Sound) (hrow : s.st.nodes.find id = some row)
    (hsucceeded : row.status ≠ .succeeded) (held : Option ℕ) :
    Sound { s with st.nodes := s.st.nodes.put id (row.abort now held) } := by
  refine ⟨fun other delivery hsession ↦ ⟨(h.delivery other delivery hsession).1, ?_⟩, h.run, h.entered,
    fun hcancelled other found hfound hactive ↦ ?_, h.waits⟩
  · dsimp only
    rw [isSome_find_put]
    exact (h.delivery other delivery hsession).2
  · dsimp only at hfound
    by_cases hother : other = id
    · subst hother
      rw [find_put_self _ _ hrow] at hfound
      cases hfound
      rw [status_abort _ hsucceeded] at hactive
      exact absurd hactive (by decide)
    · rw [find_put_of_ne _ _ hother] at hfound
      exact h.rows hcancelled other found hfound hactive

theorem Sound.deliver (h : s.Sound) (id : RowId) (token : ℕ) (worker : Option String)
    (task : Option ℕ) : (s.apply env (now, .deliver who id token worker task)).Sound := by
  dsimp only [apply]
  split
  · rename_i row hfree hrow
    by_cases hterminal : s.st.run.status.isTerminal
    · rw [if_pos hterminal]
      generalize (if row.claimToken = some token then some token else none) = held
      split_ifs with hguard
      · refine h.aborted hrow (fun hsucceeded ↦ ?_) held
        rw [hsucceeded] at hguard
        exact absurd hguard.1 (by decide)
      · exact h
    · rw [if_neg hterminal]
      split
      · exact h
      · rename_i begun hbegun
        refine h.begin hfree fun delivery hdelivery ↦ ?_
        obtain rfl := CancelSession.delivery.inj hdelivery
        refine ⟨⟨(beginNodeExecution_eq_some hbegun).1, fun attempt hphase ↦ ?_⟩, ?_⟩
        · rcases hphase with ⟨entered, hphase⟩ | hphase
          · simp at hphase
          · simp at hphase
        · rw [hrow]
          rfl
  · exact h

theorem Sound.enter (h : s.Sound) (hkept : KeepsFinal env s (now, .enter who)) :
    (s.apply env (now, .enter who)).Sound := by
  dsimp only [apply]
  split
  · rename_i delivery hsession
    split
    · rename_i begun hphase
      have hloaded : ∀ attempt, delivery.phase ≠ .checkpointed attempt := by
        intro attempt hcheckpointed
        exact absurd (hphase.symm.trans hcheckpointed) (by simp)
      split_ifs with hlock
      · exact h
      · split
        · refine h.close fun _ other hopened attempt row hcheckpointed ↦ ?_
          obtain rfl := CancelSession.delivery.inj (mem_unique hsession hopened)
          exact absurd hcheckpointed (hloaded attempt)
        · rename_i attempt hattempt
          obtain ⟨-, hrunning, hnodes, -⟩ := Workers.beginAttempt_eq_some hattempt
          have hentries : (if s.cancelled && reachesImplementation env delivery.run attempt.graphNode
              attempt.prepared then delivery.row :: s.lateEntries else s.lateEntries) = s.lateEntries := by
            refine if_neg fun hlate ↦ ?_
            exact hkept ((Bool.and_eq_true _ _).mp hlate).1 delivery begun hsession hphase
          rw [hentries]
          have hsound : DeliverySound { delivery with
              phase := .executing attempt
                (reachesImplementation env delivery.run attempt.graphNode attempt.prepared) } := by
            refine ⟨(h.delivery who delivery hsession).1.base, ?_⟩
            rintro attempt' (⟨entered, hphase'⟩ | hphase')
            · obtain ⟨rfl, -⟩ := DeliveryPhase.executing.inj hphase'
              refine ⟨hrunning, ?_⟩
              rw [hnodes]
              exact (h.delivery who delivery hsession).2
            · simp at hphase'
          exact h.proceed hsession hloaded hsound _ _
    · exact h
  · exact h

/-- The implementation commits the row of its attempt, and the delivery is in flight. -/
theorem Sound.checkpoint (h : s.Sound) : (s.apply env (now, .checkpoint who)).Sound := by
  dsimp only [apply]
  split
  · rename_i delivery hsession
    split
    · rename_i attempt hphase
      let flying : Delivery := { delivery with phase := .checkpointed attempt }
      have hexecuting := (h.delivery who delivery hsession).1.attempt attempt (.inl ⟨true, hphase⟩)
      refine ⟨fun other opened hopened ↦ ?_, h.run, h.entered,
        fun hcancelled id row hrow hactive ↦ ?_, h.waits⟩
      · dsimp only
        rw [isSome_find_modify]
        change update s.session who (some (.delivery flying)) other = _ at hopened
        rw [update_apply] at hopened
        split_ifs at hopened with hother
        · obtain rfl := CancelSession.delivery.inj (Option.some.inj hopened)
          refine ⟨⟨(h.delivery who delivery hsession).1.base, ?_⟩, (h.delivery who delivery hsession).2⟩
          rintro attempt' (⟨entered, hphase'⟩ | hphase')
          · exact absurd hphase' (by simp [flying])
          · obtain rfl := DeliveryPhase.checkpointed.inj hphase'
            exact hexecuting
        · exact h.delivery other opened hopened
      · by_cases hid : id = delivery.row
        · exact ⟨who, flying, attempt, update_self _ _ _, hid.symm, rfl⟩
        · dsimp only at hrow
          rw [find_modify_of_ne _ _ hid] at hrow
          obtain ⟨other, opened, attempt', hopened, hrowid, hphase'⟩ :=
            h.rows hcancelled id row hrow hactive
          refine ⟨other, opened, attempt', ?_, hrowid, hphase'⟩
          change update s.session who (some (.delivery flying)) other = _
          rw [update_apply, if_neg]
          · exact hopened
          · rintro rfl
            obtain rfl := CancelSession.delivery.inj (mem_unique hsession hopened)
            exact absurd hrowid.symm hid
    · exact h
  · exact h

/-! ### The end of a delivery -/

theorem finalizeRunStatus_cancelled {render : Json → String} {run : Run} (t : NodeTable)
    (h : run.status = .cancelled) : (finalizeRunStatus render now run t).status = .cancelled := by
  unfold finalizeRunStatus
  rw [if_pos h]
  exact h

/-- The row of a delivery that ends after a cancellation is written, and it is not active. -/
theorem status_honoured {final : NodeRun} (hbase : base.status.isClaimed) (hrun : s.st.run.status = .cancelled) :
    ¬ (NodeRun.flush base (final.honourCancellation s.st.run) row).status.isActive := by
  have hsettled : (final.honourCancellation s.st.run).status = .succeeded ∨
      (final.honourCancellation s.st.run).status = .cancelled := by
    by_cases hsucceeded : final.status = .succeeded
    · refine .inl ?_
      unfold NodeRun.honourCancellation
      rw [if_neg (fun hguard ↦ hguard.1 hsucceeded)]
      exact hsucceeded
    · refine .inr ?_
      unfold NodeRun.honourCancellation
      rw [if_pos ⟨hsucceeded, by simp [shouldAbortNode, hrun]⟩]
  obtain ⟨hne, hne'⟩ := NodeStatus.ne_of_isClaimed hbase
  change ¬ (flushColumn base.status (final.honourCancellation s.st.run).status row.status).isActive
  rcases hsettled with hstatus | hstatus
  · rw [hstatus, flushColumn_of_ne (Ne.symm hne)]
    decide
  · rw [hstatus, flushColumn_of_ne (Ne.symm hne')]
    decide

theorem settle_find (h : s.settle env now delivery attempt outcome draw = some done)
    (hrow : (attempt.nodes.find delivery.row).isSome) :
    ∃ final, done.state.nodes.find delivery.row = some final := by
  obtain ⟨old, hold⟩ := isSome_iff_exists.mp hrow
  unfold settle at h
  split at h
  · simp at h
  · rename_i verdict _
    cases h
    let before : Executed :=
      { state :=
          { s.st with
            run := delivery.run
            nodes := attempt.nodes.put delivery.row attempt.row }
        nodeOutputs := attempt.prepared.nodeOutputs }
    have hbefore : before.state.nodes.find delivery.row = some attempt.row :=
      find_put_self _ attempt.row hold
    obtain ⟨final, hfinal, -⟩ := Workers.find_handOn_recordOutcome env now draw attempt.row
      attempt.prepared.impl.retryPolicy verdict attempt.graphNode.type hbefore
    exact ⟨final, hfinal⟩

/-- What a delivery has made of the rows it has loaded when nothing follows its result: no other row has
become active, none has been added, and no wait is new. -/
structure Quiet (s : CancelState) (delivery : Delivery) (attempt : Attempt) (done : Executed) : Prop where
  rows : ∀ id changed, id ≠ delivery.row → done.state.nodes.find id = some changed →
    ∃ loaded, attempt.nodes.find id = some loaded ∧
      (changed.status.isActive → changed.status = loaded.status)
  waits : done.state.waits = s.st.waits

/-- No row is pending, and every other row was loaded, with the status it has if that is active. -/
def NonePending (delivery : Delivery) (attempt : Attempt) (t : NodeTable) : Prop :=
  ∀ id changed, t.find id = some changed → changed.status ≠ .pending ∧ (id ≠ delivery.row →
    ∃ loaded, attempt.nodes.find id = some loaded ∧
      (changed.status.isActive → changed.status = loaded.status))

theorem NonePending.skip {t : NodeTable} (h : NonePending delivery attempt t) (skipped : RowId) :
    NonePending delivery attempt (t.modify skipped (NodeRun.skip now)) := by
  intro id changed hchanged
  rw [KeyedTable.find_modify] at hchanged
  split_ifs at hchanged
  · obtain ⟨old, hold, rfl⟩ := map_eq_some_iff.mp hchanged
    refine ⟨NodeStatus.noConfusion, fun hne ↦ ?_⟩
    obtain ⟨loaded, hloaded, -⟩ := (h id old hold).2 hne
    exact ⟨loaded, hloaded, fun hactive ↦ absurd hactive (by simp [NodeRun.skip, NodeStatus.isActive])⟩
  · exact h id changed hchanged

/-- Nothing is pending, so an unlock promotes nothing. -/
theorem NonePending.unlock {h : HandOff} (hnone : NonePending delivery attempt h.nodes)
    (hkeys : h.spawnKeys env = none) : NonePending delivery attempt (h.apply env now) := by
  refine ReflTransGen.invariant (P := NonePending delivery attempt) ?_ (h.apply_unlocks hkeys) hnone
  intro t t' ht hstep
  cases hstep with
  | promote hpromotes =>
    obtain ⟨nodeId, promoted, old, hget, hold, -⟩ := hpromotes
    exact absurd hold (ht promoted old (get_eq_some hget).1).1
  | skipTarget moment edge skipped | skipJoin moment nodeId skipped => exact ht.skip skipped

/-- A row finishes that has nothing to hand on. -/
theorem NothingFollows.rows {result : NodeResult} (h : NothingFollows env delivery attempt result)
    (hsuccess : result.status = .succeeded ∨ result.status = .skipped) (row : NodeRun)
    (hstatus : row.status ≠ .pending) (finish : Finish) (hid : finish.id = delivery.row)
    {changed : NodeRun} (hne : id ≠ delivery.row)
    (hchanged : (propagate env now attempt.graphNode.type finish
      ((attempt.nodes.put delivery.row attempt.row).put delivery.row row)).find id = some changed) :
    ∃ loaded, attempt.nodes.find id = some loaded ∧
      (changed.status.isActive → changed.status = loaded.status) := by
  rw [put_put] at hchanged
  let h' : HandOff :=
    { finish := finish
      nodeType := some attempt.graphNode.type
      nodes := attempt.nodes.put delivery.row row }
  change (h'.apply env now).find id = some changed at hchanged
  rcases h.next hsuccess with hnone | ⟨hfan, hkey, hpending⟩
  · rw [h'.apply_of_no_successors (hid ▸ hnone), find_put_of_ne _ _ hne] at hchanged
    exact ⟨changed, hchanged, fun _ ↦ rfl⟩
  · have hstart : NonePending delivery attempt (attempt.nodes.put delivery.row row) := by
      intro other current hcurrent
      by_cases hown : other = delivery.row
      · refine ⟨?_, fun hne ↦ absurd hown hne⟩
        rw [hown, find_put, if_pos rfl] at hcurrent
        obtain ⟨_, -, rfl⟩ := map_eq_some_iff.mp hcurrent
        exact hstatus
      · rw [find_put_of_ne _ _ hown] at hcurrent
        exact ⟨hpending other current hown hcurrent, fun _ ↦ ⟨current, hcurrent, fun _ ↦ rfl⟩⟩
    have hkeys : h'.spawnKeys env = none := by
      unfold HandOff.spawnKeys
      dsimp only [h']
      rw [if_neg (fun hguard ↦ hfan hguard.1), hid, if_neg (not_not.mpr hkey)]
    exact (NonePending.unlock (h := h') hstart hkeys id changed hchanged).2 hne

/-- The result of a verdict is what the implementation gives, or the mock in its place. -/
theorem gives_of_judgeNode {result : NodeResult} {output : JsonObject}
    (h : judgeNode env delivery.run attempt.graphNode attempt.prepared outcome =
      .ok (.result result output)) : Gives env delivery attempt outcome result := by
  have hperform : performNode env delivery.run attempt.graphNode attempt.prepared outcome =
      .ok (some result) := by
    unfold judgeNode at h
    split at h
    · simp at h
    · simp at h
    · rename_i given hgiven
      split_ifs at h
      · cases h
        exact hgiven
      · split at h
        · cases h
          exact hgiven
        · split at h
          · simp at h
          · simp at h
  unfold performNode at hperform
  simp only [bind, Except.bind, pure, Except.pure] at hperform
  split at hperform
  · simp at hperform
  · split at hperform
    · simp at hperform
    · split at hperform
      · rename_i mocked hmocked
        cases hperform
        exact .inr hmocked
      · split_ifs at hperform
        · cases outcome with
          | error exc => simp at hperform
          | ok given => exact .inl (congrArg Except.ok (by simpa using hperform))
        · split at hperform <;> simp at hperform

/-- A pause of a node that waits for nothing is recorded without a wait. -/
theorem NothingFollows.persist {result : NodeResult} (h : NothingFollows env delivery attempt result)
    (hstatus : result.status = .waiting) {paused : NodeRun} (htype : paused.nodeType = attempt.row.nodeType)
    (waitId : ℕ) (output : JsonObject) :
    (persistWaitingNode env.render env.parseResumeAt env.isoFormat now delivery.row paused waitId output
      result.waitingReason).1 = [] := by
  obtain ⟨hnode, hreason⟩ := h.pause hstatus
  simp only [mem_cons, not_mem_nil, or_false, not_or] at hnode hreason
  unfold persistWaitingNode
  split
  · rfl
  · rw [htype, if_neg (by simp [hnode, hreason]), if_neg (by simp [hnode, hreason]),
      if_neg (by simp [hnode, hreason])]

theorem quiet_of_nothingFollows (h : s.settle env now delivery attempt outcome draw = some done)
    (hfollows : ∀ result, Gives env delivery attempt outcome result →
      NothingFollows env delivery attempt result) : s.Quiet delivery attempt done := by
  have hput : ∀ (row : NodeRun) id changed, id ≠ delivery.row →
      ((attempt.nodes.put delivery.row attempt.row).put delivery.row row).find id = some changed →
        ∃ loaded, attempt.nodes.find id = some loaded ∧
          (changed.status.isActive → changed.status = loaded.status) := by
    intro row id changed hne hchanged
    rw [find_put_of_ne _ _ hne, find_put_of_ne _ _ hne] at hchanged
    exact ⟨changed, hchanged, fun _ ↦ rfl⟩
  unfold settle at h
  cases hverdict : judgeNode env delivery.run attempt.graphNode attempt.prepared outcome with
  | error exc =>
    rw [hverdict] at h
    simp at h
  | ok verdict =>
    rw [hverdict] at h
    cases h
    cases verdict with
    | failure error errorClass => exact ⟨hput _, rfl⟩
    | result result output =>
      have hnothing := hfollows result (gives_of_judgeNode hverdict)
      obtain ⟨status, raw, error, reason⟩ := result
      cases status with
      | succeeded =>
        exact ⟨fun id changed hne hchanged ↦ hnothing.rows (.inl rfl) _ NodeStatus.noConfusion _ rfl hne
          hchanged, rfl⟩
      | skipped =>
        exact ⟨fun id changed hne hchanged ↦ hnothing.rows (.inr rfl) _ NodeStatus.noConfusion _ rfl hne
          hchanged, rfl⟩
      | waiting =>
        refine ⟨hput _, ?_⟩
        refine (congrArg (s.st.waits ++ ·) (hnothing.persist rfl ?_ _ _)).trans (append_nil _)
        rfl
      | failed => exact ⟨hput _, rfl⟩

theorem Quiet.other (h : s.Quiet delivery attempt done) {nodes : NodeTable}
    (hnodes : flush (attempt.nodes.put delivery.row base) (s.honoured delivery done)
      s.st.nodes = some nodes) (hid : id ≠ delivery.row)
    (hrow : nodes.find id = some row) (hactive : row.status.isActive) :
    ∃ old, s.st.nodes.find id = some old ∧ old.status.isActive := by
  have hdone : (s.honoured delivery done).find id = done.state.nodes.find id :=
    find_modify_of_ne _ _ hid
  rcases find_flush_cases hnodes hrow with
    hsame | ⟨old, loaded, changed, hold, hloaded, hchanged, rfl⟩ | ⟨hnone, hcreated⟩
  · exact ⟨row, hsame, hactive⟩
  · rw [find_put_of_ne _ _ hid] at hloaded
    rw [hdone] at hchanged
    refine ⟨old, hold, ?_⟩
    change (flushColumn loaded.status changed.status old.status).isActive at hactive
    by_cases hstatus : changed.status = loaded.status
    · rw [hstatus, flushColumn_unchanged] at hactive
      exact hactive
    · rw [flushColumn_of_ne hstatus] at hactive
      obtain ⟨loaded', hloaded', hsame⟩ := h.rows id changed hid hchanged
      obtain rfl := mem_unique hloaded hloaded'
      exact absurd (hsame hactive) hstatus
  · rw [find_put_of_ne _ _ hid] at hnone
    rw [hdone] at hcreated
    obtain ⟨loaded, hloaded, -⟩ := h.rows id row hid hcreated
    rw [hnone] at hloaded
    simp at hloaded

/-- No row has been added, so nothing is refused. -/
theorem Quiet.exists_flush (h : s.Quiet delivery attempt done) (base : NodeRun)
    (hexists : (attempt.nodes.find delivery.row).isSome) :
    ∃ nodes, flush (attempt.nodes.put delivery.row base) (s.honoured delivery done) s.st.nodes =
      some nodes := by
  refine NodeTable.exists_flush fun id hid ↦ ?_
  rw [isSome_find_put]
  by_cases hown : id = delivery.row
  · rwa [hown]
  · obtain ⟨changed, hchanged⟩ := isSome_iff_exists.mp hid
    rw [honoured, find_modify_of_ne _ _ hown] at hchanged
    obtain ⟨loaded, hloaded, -⟩ := h.rows id changed hown hchanged
    rw [hloaded]
    rfl

theorem Sound.own (h : s.Sound) (hsession : s.session who = some (.delivery delivery)) (hcancelled : s.cancelled)
    (hexists : (attempt.nodes.find delivery.row).isSome)
    (hsettle : s.settle env now delivery attempt outcome draw = some done)
    (hbase : base.status.isClaimed) {nodes : NodeTable}
    (hnodes : flush (attempt.nodes.put delivery.row base) (s.honoured delivery done)
      s.st.nodes = some nodes) (hrow : nodes.find delivery.row = some row) :
    ¬ row.status.isActive := by
  obtain ⟨loaded, hloaded⟩ := isSome_iff_exists.mp hexists
  obtain ⟨final, hfinal⟩ := settle_find hsettle hexists
  obtain ⟨old, hold⟩ := isSome_iff_exists.mp (h.delivery who delivery hsession).2
  have hnew : (s.honoured delivery done).find delivery.row =
      some (final.honourCancellation s.st.run) := by
    unfold honoured
    rw [find_modify_self, hfinal]
    rfl
  have hflush := find_flush hnodes (find_put_self _ base hloaded) hnew hold
  obtain rfl := mem_unique hrow hflush
  exact status_honoured hbase (h.run hcancelled)

/-- A delivery ends. -/
theorem Sound.finishWith (h : s.Sound) (hsession : s.session who = some (.delivery delivery))
    (hphase : (∃ entered, delivery.phase = .executing attempt entered) ∨
      delivery.phase = .checkpointed attempt)
    (hbase : base.status.isClaimed) (hglobals : env.globals = repairedGlobals)
    (hkept : KeepsFinal env s (now, .finish who outcome draw)) :
    (s.finishWith env now who delivery attempt base outcome draw).Sound := by
  have hsame : ∀ opened, s.session who = some (.delivery opened) → opened = delivery := by
    intro opened hopened
    exact (CancelSession.delivery.inj (mem_unique hsession hopened)).symm
  unfold CancelState.finishWith
  have hexists := ((h.delivery who delivery hsession).1.attempt attempt hphase).2
  have hquiet : ∀ done, s.cancelled → s.settle env now delivery attempt outcome draw = some done →
      s.Quiet delivery attempt done := fun done hcancelled hsettle ↦
    quiet_of_nothingFollows hsettle (hkept hcancelled delivery attempt hsession hphase)
  cases hsettle : s.settle env now delivery attempt outcome draw with
  | none =>
    -- every behaviour of the node has a verdict
    obtain ⟨verdict, hverdict⟩ := judgeNode_repaired hglobals delivery.run attempt.graphNode
      attempt.prepared outcome
    rw [settle, hverdict] at hsettle
    simp at hsettle
  | some done =>
    dsimp only
    cases hnodes : flush (attempt.nodes.put delivery.row base) (s.honoured delivery done)
        s.st.nodes with
    | none =>
      refine h.close fun hcancelled ↦ ?_
      obtain ⟨nodes, hsome⟩ := (hquiet done hcancelled hsettle).exists_flush base hexists
      rw [hnodes] at hsome
      simp at hsome
    | some nodes =>
      refine ⟨fun other opened hopened ↦ ?_, fun hcancelled ↦ ?_, h.entered,
        fun hcancelled id row hrow hactive ↦ ?_, fun hcancelled wait hwait hpending ↦ ?_⟩
      · have hbefore : s.session other = some (.delivery opened) := by
          rw [session_close] at hopened
          split_ifs at hopened
          exact hopened
        obtain ⟨hsound, hrow⟩ := h.delivery other opened hbefore
        refine ⟨hsound, ?_⟩
        change ((nodes.modify delivery.row _).find opened.row).isSome
        rw [isSome_find_modify]
        exact isSome_find_flush hnodes hrow
      · exact finalizeRunStatus_cancelled _ (h.run hcancelled)
      · change (nodes.modify delivery.row (completeNode (some delivery.token))).find id = some row at hrow
        by_cases hid : id = delivery.row
        · subst hid
          rw [find_modify_self] at hrow
          obtain ⟨written, hwritten, rfl⟩ := map_eq_some_iff.mp hrow
          rw [(status_completeNode _ _).1] at hactive
          exact absurd hactive (h.own hsession hcancelled hexists hsettle hbase hnodes hwritten)
        · rw [find_modify_of_ne _ _ hid] at hrow
          obtain ⟨old, hold, hactive'⟩ := (hquiet done hcancelled hsettle).other hnodes hid hrow hactive
          obtain ⟨other, opened, attempt', hopened, hrowid, hphase'⟩ :=
            h.rows hcancelled id old hold hactive'
          refine ⟨other, opened, attempt', ?_, hrowid, hphase'⟩
          refine (session_close _ who other).trans ((if_neg ?_).trans hopened)
          rintro rfl
          rw [hsame opened hopened] at hrowid
          exact hid hrowid.symm
      · have hsame : done.state.waits = s.st.waits := (hquiet done hcancelled hsettle).waits
        exact h.waits hcancelled wait (hsame ▸ hwait) hpending

theorem Sound.finish (h : s.Sound) (hglobals : env.globals = repairedGlobals)
    (hkept : KeepsFinal env s (now, .finish who outcome draw)) :
    (s.apply env (now, .finish who outcome draw)).Sound := by
  dsimp only [apply]
  split
  · rename_i delivery hsession
    obtain ⟨hbase, hattempt⟩ := (h.delivery who delivery hsession).1
    split
    · rename_i attempt entered hphase
      exact h.finishWith hsession (.inl ⟨entered, hphase⟩) hbase hglobals hkept
    · rename_i attempt hphase
      have hrunning : attempt.row.status.isClaimed := by
        rw [(hattempt attempt (.inr hphase)).1]
        decide
      split_ifs
      · exact h
      · exact h.finishWith hsession (.inr hphase) hrunning hglobals hkept
    · exact h
  · exact h

/-! ### Cancellations -/

/-- An active row after a cancellation was active before, and the cancellation has not loaded it as one
that has not settled. -/
theorem cancelRows_active {loaded stored : NodeTable}
    (hrow : (cancelRows now loaded stored).find id = some row) (hactive : row.status.isActive) :
    ∃ old, stored.find id = some old ∧ old.status.isActive ∧
      ∀ base, loaded.find id = some base → base.status.isSuccess ∨ base.status = .cancelled := by
  unfold cancelRows at hrow
  rw [find_mapValues] at hrow
  obtain ⟨old, hold, hwritten⟩ := map_eq_some_iff.mp hrow
  cases hloaded : loaded.find id with
  | none =>
    rw [hloaded] at hwritten
    subst hwritten
    exact ⟨old, hold, hactive, fun base hbase ↦ absurd hbase (by simp)⟩
  | some base =>
    rw [hloaded] at hwritten
    subst hwritten
    change (flushColumn base.status (base.cancel now).status old.status).isActive at hactive
    have hcases : ((base.status.isSuccess ∨ base.status = .cancelled) ∧
        (base.cancel now).status = base.status) ∨
          ((base.cancel now).status = .cancelled ∧ base.status ≠ .cancelled) := by
      cases hstatus : base.status with
      | succeeded | skipped =>
        refine .inl ⟨.inl rfl, ?_⟩
        rw [NodeRun.cancel, hstatus]
        exact hstatus
      | cancelled =>
        refine .inl ⟨.inr rfl, ?_⟩
        rw [NodeRun.cancel, hstatus]
      | pending | ready | queued | running | waiting | failed =>
        refine .inr ⟨?_, NodeStatus.noConfusion⟩
        rw [NodeRun.cancel, hstatus]
        rfl
    rcases hcases with ⟨hsettled, hsame⟩ | ⟨hcancelled, hne⟩
    · rw [hsame, flushColumn_unchanged] at hactive
      refine ⟨old, hold, hactive, fun base' hbase' ↦ ?_⟩
      cases hbase'
      exact hsettled
    · rw [hcancelled, flushColumn_of_ne (Ne.symm hne)] at hactive
      exact absurd hactive (by decide)

theorem cancelWait_status (wait : Wait) : (cancelWait now wait).status ≠ .pending := by
  unfold cancelWait
  split_ifs with hpending
  · exact WaitStatus.noConfusion
  · exact hpending

theorem Sound.loadCancel (h : s.Sound) : (s.apply env (now, .loadCancel who)).Sound := by
  dsimp only [apply]
  split
  · rename_i hfree
    split_ifs
    · exact h
    · exact h.begin hfree fun delivery hdelivery ↦ absurd hdelivery (by simp)
  · exact h

theorem Sound.commitCancel (h : s.Sound) (hkept : KeepsFinal env s (now, .commitCancel who)) :
    (s.apply env (now, .commitCancel who)).Sound := by
  dsimp only [apply]
  split
  · rename_i run nodes hsession
    split_ifs with hwaits
    · exact h
    · refine ⟨fun other delivery hopened ↦ ?_, fun _ ↦ rfl, h.entered, fun _ id row hrow hactive ↦ ?_,
        fun _ wait hwait ↦ ?_⟩
      · have hbefore : s.session other = some (.delivery delivery) := by
          change (s.close who).session other = _ at hopened
          rw [session_close] at hopened
          split_ifs at hopened
          exact hopened
        obtain ⟨hsound, hrow⟩ := h.delivery other delivery hbefore
        refine ⟨hsound, ?_⟩
        change ((cancelRows now nodes s.st.nodes).find delivery.row).isSome
        unfold cancelRows
        rw [find_mapValues, isSome_map]
        exact hrow
      · obtain ⟨old, hold, hactive', hloaded⟩ := cancelRows_active hrow hactive
        by_cases hcancelled : s.cancelled
        · obtain ⟨other, delivery, attempt, hopened, hid, hphase⟩ := h.rows hcancelled id old hold hactive'
          refine ⟨other, delivery, attempt, ?_, hid, hphase⟩
          refine (session_close s who other).trans ((if_neg ?_).trans hopened)
          rintro rfl
          rw [hsession] at hopened
          simp at hopened
        · obtain ⟨base, hbase, hsuccess, hne⟩ :=
            hkept hcancelled run nodes hsession (by simpa using hwaits) id old hold hactive'
          rcases hloaded base hbase with hsettled | hsettled
          · exact absurd hsettled hsuccess
          · exact absurd hsettled hne
      · obtain ⟨before, -, rfl⟩ := List.mem_map.mp hwait
        exact cancelWait_status before
  · exact h

/-! ### Runs -/

theorem isSome_find_advance (st : EngineState) (id : RowId) :
    ((advance env now st).nodes.find id).isSome = (st.nodes.find id).isSome := by
  have hsteps : Relation.ReflTransGen (QuietStep env.graph) st.nodes (Workflows.advance env now st).nodes :=
    advance_steps st
  generalize (Workflows.advance env now st).nodes = t at hsteps ⊢
  induction hsteps with
  | refl => rfl
  | tail _ hstep ih =>
    rw [← ih]
    cases hstep with
    | promote hpromotes =>
      obtain ⟨nodeId, other, row, _, _, _⟩ := hpromotes
      exact isSome_find_modify _ _ _ _
    | write f _ => rw [find_mapValues, isSome_map]

theorem Sound.advance (h : s.Sound) : (s.apply env (now, .advance)).Sound := by
  change Sound { s with st := Workflows.advance env now s.st }
  have hover : s.cancelled → Workflows.advance env now s.st = s.st := by
    intro hcancelled
    refine if_pos ?_
    rw [h.run hcancelled]
    rfl
  refine ⟨fun other delivery hsession ↦ ?_, fun hcancelled ↦ ?_, h.entered, fun hcancelled ↦ ?_,
    fun hcancelled ↦ ?_⟩
  · obtain ⟨hsound, hrow⟩ := h.delivery other delivery hsession
    exact ⟨hsound, (isSome_find_advance s.st delivery.row).trans hrow⟩
  · dsimp only
    rw [hover hcancelled]
    exact h.run hcancelled
  · dsimp only
    rw [hover hcancelled]
    exact h.rows hcancelled
  · dsimp only
    rw [hover hcancelled]
    exact h.waits hcancelled

theorem Sound.apply (h : s.Sound) {op : Time × CancelOp} (hglobals : env.globals = repairedGlobals)
    (hkept : KeepsFinal env s op) : (s.apply env op).Sound := by
  obtain ⟨now, op⟩ := op
  cases op with
  | deliver who id token worker task => exact h.deliver id token worker task
  | enter who => exact h.enter hkept
  | checkpoint who => exact h.checkpoint
  | finish who outcome draw => exact h.finish hglobals hkept
  | crash who => exact h.close hkept
  | advance => exact h.advance
  | loadCancel who => exact h.loadCancel
  | commitCancel who => exact h.commitCancel hkept

/-- In every run of deliveries and cancellations whose steps meet the condition, a cancellation is
final. -/
theorem cancellation_final (env : EngineEnv) (hglobals : env.globals = repairedGlobals)
    (st : EngineState) (ops : List (Time × CancelOp))
    (hkept : Along (CancelState.apply env) (KeepsFinal env) ops { st := st })
    (before after : List (Time × CancelOp)) (hops : ops = before ++ after) :
    (play (CancelState.apply env) before { st := st }).Final := by
  rw [hops, along_append] at hkept
  have hstart : Sound { st := st } := by
    refine ⟨fun who delivery hsession ↦ absurd hsession (by simp), fun hcancelled ↦ ?_, rfl,
      fun hcancelled ↦ ?_, fun hcancelled ↦ ?_⟩
    · simp at hcancelled
    · simp at hcancelled
    · simp at hcancelled
  have hstep : ∀ (s : CancelState) (op : Time × CancelOp), s.Sound → KeepsFinal env s op →
      (s.apply env op).Sound := fun s op hs hop ↦ hs.apply hglobals hop
  exact (hkept.1.invariant hstep hstart).final

/-! ### Cancellations that nobody interferes with -/

/-- A cancellation that finds the rows as it has loaded them leaves none of them active. -/
theorem keepsFinal_loaded (hloaded : s.session who = some (.cancelling s.st.run s.st.nodes)) :
    KeepsFinal env s (now, .commitCancel who) := by
  intro _ run nodes hsession _ id row hrow hactive
  obtain ⟨-, rfl⟩ := CancelSession.cancelling.inj (mem_unique hloaded hsession)
  refine ⟨row, hrow, ?_, ?_⟩
  · revert hactive
    cases row.status <;> decide
  · intro hcancelled
    rw [hcancelled] at hactive
    exact absurd hactive (by decide)

/-- A step leaves the transactions of the others alone. -/
theorem session_apply {op : Time × CancelOp} (hop : op.2.who ≠ some who) :
    (s.apply env op).session who = s.session who := by
  have hne : ∀ {w}, op.2.who = some w → who ≠ w := fun hw heq ↦ hop (hw.trans (congrArg some heq.symm))
  have hclose : ∀ (s : CancelState) w, who ≠ w → (s.close w).session who = s.session who := by
    intro s w hw
    rw [session_close, if_neg hw]
  have hfinish : ∀ (now : Time) w delivery attempt base outcome draw, who ≠ w →
      (s.finishWith env now w delivery attempt base outcome draw).session who = s.session who := by
    intro now w delivery attempt base outcome draw hw
    unfold CancelState.finishWith
    split
    · exact hclose _ _ hw
    · split
      · exact hclose _ _ hw
      · exact hclose _ _ hw
  obtain ⟨now, op⟩ := op
  cases op with
  | advance => rfl
  | crash w => exact hclose s w (hne rfl)
  | deliver w id token worker task =>
    dsimp only [apply]
    split
    · split_ifs
      · rfl
      · rfl
      · rfl
      · split
        · rfl
        · exact update_of_ne (hne rfl) _ _
    · rfl
  | enter w =>
    dsimp only [apply]
    split
    · split
      · split_ifs
        · rfl
        · split
          · exact hclose s w (hne rfl)
          · exact update_of_ne (hne rfl) _ _
      · rfl
    · rfl
  | checkpoint w =>
    dsimp only [apply]
    split
    · split
      · exact update_of_ne (hne rfl) _ _
      · rfl
    · rfl
  | finish w outcome draw =>
    dsimp only [apply]
    split
    · split
      · exact hfinish now w _ _ _ outcome draw (hne rfl)
      · split_ifs
        · rfl
        · exact hfinish now w _ _ _ outcome draw (hne rfl)
      · rfl
    · rfl
  | loadCancel w =>
    dsimp only [apply]
    split
    · split_ifs
      · rfl
      · exact update_of_ne (hne rfl) _ _
    · rfl
  | commitCancel w =>
    dsimp only [apply]
    split
    · split_ifs
      · rfl
      · exact hclose _ w (hne rfl)
    · rfl

theorem session_play (ops : List (Time × CancelOp)) (hops : ∀ op ∈ ops, op.2.who ≠ some who)
    (s : CancelState) : (play (CancelState.apply env) ops s).session who = s.session who := by
  induction ops generalizing s with
  | nil => rfl
  | cons op rest ih =>
    refine (ih (fun op' hop' ↦ hops op' (mem_cons_of_mem op hop')) (s.apply env op)).trans ?_
    exact session_apply (hops op mem_cons_self)

end CancelState

/-! ### A publish node under way -/

def publishDelayGraph : WorkflowGraph where
  schemaVersion := 2
  nodes :=
    [{ id := "t", type := "manual_trigger" }, { id := "p", type := "publish" },
      { id := "d", type := "delay" }]
  edges := [{ source := "t", target := "p" }, { source := "p", target := "d" }]

def publishDelayEnv : EngineEnv := catalogueEnv publishDelayGraph repairedGlobals

/-- The run in which the trigger has succeeded and the publish node is claimed under the token 2. -/
def publishDelayRun : EngineState :=
  publishDelayEnv.play
    [(1, execSucceeds "t" "" 0 [("payload", .obj []), ("trigger_type", .str "manual_trigger")])]
    (startRun publishDelayEnv 0 .inline [] [])

/-- The publish node has committed half way when the run is cancelled. -/
def cancelledUnderWay : List (Time × CancelOp) :=
  [(2, .deliver 0 ⟨"p", ""⟩ 2 none none), (2, .enter 0), (3, .checkpoint 0), (4, .loadCancel 1),
    (4, .commitCancel 1)]

/-- When the publish node has ended, the run is cancelled and nobody works on it, and the row of the next
node is ready. -/
theorem cancelled_successor_ready :
    graphValid catalogue (fun _ ↦ []) publishDelayGraph { socialAccountIds := ["account"] } ∧
      Reachable publishDelayEnv anyOp publishDelayRun ∧
      ¬ (play (CancelState.apply publishDelayEnv) (cancelledUnderWay ++ [(5, .finish 0 published 0)])
        { st := publishDelayRun }).Final := by
  refine ⟨by decide +kernel, reachable_play 0 .inline [] [] (permits_anyOp _ _ _), fun hfinal ↦ ?_⟩
  generalize hend : play (CancelState.apply publishDelayEnv)
    (cancelledUnderWay ++ [(5, .finish 0 published 0)]) { st := publishDelayRun } = s at hfinal
  obtain ⟨hcancelled, hfirst, hsecond, hready⟩ :
      s.cancelled ∧ (s.session 0).isNone ∧ (s.session 1).isNone ∧
        (s.st.nodes.find ⟨"d", ""⟩).map NodeRun.status = some .ready := by
    rw [← hend]
    exact ⟨by decide +kernel, by decide +kernel, by decide +kernel, by decide +kernel⟩
  obtain ⟨row, hrow, hstatus⟩ := map_eq_some_iff.mp hready
  refine hfinal.rows hcancelled (fun who delivery hsession ↦ ?_) _ row hrow (by rw [hstatus]; decide)
  by_cases hzero : who = 0
  · rw [hzero, isNone_iff_eq_none.mp hfirst] at hsession
    simp at hsession
  by_cases hone : who = 1
  · rw [hone, isNone_iff_eq_none.mp hsecond] at hsession
    simp at hsession
  have huntouched : ∀ op ∈ cancelledUnderWay ++ [(5, .finish 0 published 0)],
      CancelOp.who op.2 ≠ some who := by
    intro op hop
    have hwho : CancelOp.who op.2 = some 0 ∨ CancelOp.who op.2 = some 1 := by
      revert op
      simp [cancelledUnderWay, CancelOp.who]
    rcases hwho with hwho | hwho
    · rw [hwho]
      exact fun heq ↦ hzero (Option.some.inj heq).symm
    · rw [hwho]
      exact fun heq ↦ hone (Option.some.inj heq).symm
  rw [← hend, CancelState.session_play _ huntouched] at hsession
  simp at hsession

/-- The same run, without its rows but the one of the publish node. -/
def claimedPublish : EngineState where
  run := { status := .running }
  nodes :=
    { entries :=
        [(⟨"p", ""⟩,
          { nodeType := "publish", nodeVersion := 1, status := .queued, claimToken := some 2 })]
      nodupKeys := nodup_singleton _ }

/-- The publish node is the last one: it has committed half way when the run is cancelled, and then it
succeeds. -/
theorem lastNode_cancelled_final :
    (play (CancelState.apply publishEnv) (cancelledUnderWay ++ [(5, .finish 0 published 0)])
      { st := claimedPublish }).Final := by
  have hrow : ((play (CancelState.apply publishEnv) cancelledUnderWay { st := claimedPublish }).session
      0).map (fun session ↦ match session with
        | .delivery delivery => delivery.row
        | .cancelling _ _ => ⟨"", ""⟩) = some ⟨"p", ""⟩ := by decide +kernel
  obtain ⟨session, hsession, hp⟩ := map_eq_some_iff.mp hrow
  have hkept : Along (CancelState.apply publishEnv) (CancelState.KeepsFinal publishEnv)
      (cancelledUnderWay ++ [(5, .finish 0 published 0)]) { st := claimedPublish } := by
    refine ⟨trivial, fun hcancelled ↦ absurd hcancelled (by decide +kernel), trivial, trivial,
      CancelState.keepsFinal_loaded rfl, fun _ delivery attempt hdelivery _ result hgives ↦ ?_, trivial⟩
    obtain rfl := mem_unique hsession hdelivery
    rcases hgives with hgiven | hmocked
    · obtain rfl := Except.ok.inj hgiven
      refine ⟨fun hwaiting ↦ absurd hwaiting (by decide), fun _ ↦ .inl ?_⟩
      rw [show delivery.row = ⟨"p", ""⟩ from hp]
      rfl
    · exact absurd hmocked (by simp [publishEnv, catalogueEnv])
  exact CancelState.cancellation_final publishEnv rfl claimedPublish _ hkept _ [] (append_nil _).symm

end ContentGenerator.Workflows
