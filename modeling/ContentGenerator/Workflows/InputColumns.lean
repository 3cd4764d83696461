import ContentGenerator.Workflows.NodeResults
import ContentGenerator.Workflows.Pauses

/-!
# The columns an attempt is prepared from

Of the columns of a row, an attempt reads the inputs, the execution key and the node version
(`NodeRun.SameInput`). They change at four moments only: a claim writes the execution key, an attempt
writes inputs and key, a reset empties the inputs, and a hand-off seeds the rows of iterations.
`Reachable.rowsHold` is the rule: a property of these columns that survives the four holds of every row
in every reachable state.
-/

namespace ContentGenerator.Workflows

open Lib Relation Option WorkflowGraph ReflTransGen

variable {env : EngineEnv} {now : Time}

/-! ### The columns -/

structure NodeRun.SameInput (row row' : NodeRun) : Prop where
  inputJson : row'.inputJson = row.inputJson
  executionKey : row'.executionKey = row.executionKey
  nodeVersion : row'.nodeVersion = row.nodeVersion

theorem NodeRun.SameInput.trans {row row' row'' : NodeRun} (h : row.SameInput row')
    (h' : row'.SameInput row'') : row.SameInput row'' :=
  ⟨h'.inputJson.trans h.inputJson, h'.executionKey.trans h.executionKey,
    h'.nodeVersion.trans h.nodeVersion⟩

theorem completeNode_sameInput (token : Option ℕ) (row : NodeRun) :
    row.SameInput (completeNode token row) := by
  unfold completeNode
  split_ifs <;> exact ⟨rfl, rfl, rfl⟩

theorem honourCancellation_sameInput (run : Run) (row : NodeRun) :
    row.SameInput (row.honourCancellation run) := by
  unfold NodeRun.honourCancellation
  split_ifs <;> exact ⟨rfl, rfl, rfl⟩

theorem abort_sameInput (token : Option ℕ) (row : NodeRun) : row.SameInput (row.abort now token) := by
  unfold NodeRun.abort
  refine NodeRun.SameInput.trans ?_ (completeNode_sameInput token _)
  split_ifs <;> exact ⟨rfl, rfl, rfl⟩

theorem cancel_sameInput (row : NodeRun) : row.SameInput (row.cancel now) := by
  unfold NodeRun.cancel
  split <;> exact ⟨rfl, rfl, rfl⟩

theorem recover_sameInput (draw : ℚ) (row : NodeRun) : row.SameInput (row.recover env now draw) := by
  unfold NodeRun.recover
  dsimp only
  split_ifs <;> exact ⟨rfl, rfl, rfl⟩

theorem recordTaskExecution_sameInput (task : Option ℕ) (row : NodeRun) :
    row.SameInput (NodeRun.recordTaskExecution task row) := by
  cases task <;> exact ⟨rfl, rfl, rfl⟩

theorem beginNodeExecution_sameInput {lease : Time} {token : ℕ} {worker : Option String}
    {task : Option ℕ} {row begun : NodeRun}
    (h : beginNodeExecution lease now token worker task row = some begun) : row.SameInput begun := by
  unfold beginNodeExecution at h
  rw [ite_none_right_eq_some] at h
  obtain rfl := Option.some.inj h.2
  refine NodeRun.SameInput.trans ?_ (recordTaskExecution_sameInput task _)
  exact ⟨rfl, rfl, rfl⟩

theorem persistFailure_sameInput (render : Json → String) (draw : ℚ) (policy : RetryPolicyDefaults)
    (error : JsonObject) (errorClass : String) (row : NodeRun) :
    row.SameInput (persistFailure render now draw policy error errorClass row) := by
  unfold persistFailure
  split_ifs <;> exact ⟨rfl, rfl, rfl⟩

/-! ### Properties of the rows -/

def RowsHold (P : RowId → NodeRun → Prop) (t : NodeTable) : Prop := ∀ id row, t.find id = some row → P id row

/-- A property of the columns that survives claims and resets, and holds of the first rows of a run. -/
structure InputRule (env : EngineEnv) (P : RowId → NodeRun → Prop) : Prop where
  congr : ∀ {id row row'}, P id row → NodeRun.SameInput row row' → P id row'
  claims : ∀ {id row}, P id row → P id
    { row with
      executionKey := some (buildExecutionKey env.runId id.nodeId
        (if row.nodeVersion = 0 then 1 else row.nodeVersion) id.iterationKey) }
  resets : ∀ {id row}, P id row → P id { row with inputJson := [] }
  starts : ∀ node, env.graph.node? node.id = some node → P ⟨node.id, ""⟩ (startRow env.graph node).2

/-- The seeds of the rows that a hand-off creates or sets `READY` have the property. -/
structure SeedsHold (env : EngineEnv) (P : RowId → NodeRun → Prop) (h : HandOff) : Prop where
  created : ∀ node, env.graph.node? node.id = some node →
    ∀ keyed ∈ uniqueIterationKeys env.render (fanOutItems h.finish.output),
      P ⟨node.id, keyed.1⟩
        (node.iterationRow (seedIterationInputs keyed.2 keyed.1 h.finish.id.nodeId))
  reused : ∀ node, env.graph.node? node.id = some node →
    ∀ keyed ∈ uniqueIterationKeys env.render (fanOutItems h.finish.output), ∀ row,
      P ⟨node.id, keyed.1⟩ row → P ⟨node.id, keyed.1⟩
        { row with
          inputJson := JsonObject.update row.inputJson
            (seedIterationInputs keyed.2 keyed.1 h.finish.id.nodeId) }
  downstream : ∀ node, env.graph.node? node.id = some node →
    P ⟨node.id, h.finish.id.iterationKey⟩
      (node.iterationRow [("iteration_key", .str h.finish.id.iterationKey),
        ("upstream", .obj h.finish.output)])

section Rows

variable {P : RowId → NodeRun → Prop} {t t' : NodeTable}

theorem RowsHold.mapValues (h : RowsHold P t) {f : RowId → NodeRun → NodeRun}
    (hf : ∀ id row, t.find id = some row → P id row → P id (f id row)) : RowsHold P (t.mapValues f) := by
  intro id row' hrow'
  rw [KeyedTable.find_mapValues] at hrow'
  obtain ⟨row, hrow, rfl⟩ := map_eq_some_iff.mp hrow'
  exact hf id row hrow (h id row hrow)

theorem RowsHold.modify (h : RowsHold P t) {id : RowId} {f : NodeRun → NodeRun}
    (hf : ∀ row, t.find id = some row → P id row → P id (f row)) : RowsHold P (t.modify id f) := by
  refine h.mapValues fun other row hrow hother ↦ ?_
  split_ifs with hsame
  · subst hsame
    exact hf row hrow hother
  · exact hother

theorem RowsHold.put (h : RowsHold P t) {id : RowId} {row' : NodeRun}
    (hrow' : ∀ row, t.find id = some row → P id row → P id row') : RowsHold P (t.put id row') :=
  h.modify hrow'

theorem RowsHold.insertNew (h : RowsHold P t) {id : RowId} {row : NodeRun} (hrow : P id row) :
    RowsHold P (t.insertNew id row) := by
  intro other row' hrow'
  rw [KeyedTable.find_insertNew] at hrow'
  split_ifs at hrow' with hnew
  · rw [hnew.1, ← Option.some.inj hrow']
    exact hrow
  · exact h other row' hrow'

theorem RowsHold.of_steps {r : NodeTable → NodeTable → Prop}
    (hr : ∀ a b, RowsHold P a → r a b → RowsHold P b) (hsteps : ReflTransGen r t t') (h : RowsHold P t) :
    RowsHold P t' :=
  invariant (P := RowsHold P) (fun a b ↦ hr a b) hsteps h

variable (hrule : InputRule env P)

include hrule

theorem InputRule.setStatus (h : RowsHold P t) (id : RowId) (status : NodeStatus) :
    RowsHold P (t.setStatus id status) :=
  h.modify fun _ _ hrow ↦ hrule.congr hrow ⟨rfl, rfl, rfl⟩

theorem InputRule.promotes {g : WorkflowGraph} (h : RowsHold P t) (hstep : Promotes g t t') :
    RowsHold P t' := by
  cases hstep with
  | intro nodeId id => exact hrule.setStatus h id .ready

theorem InputRule.unlockStep {g : WorkflowGraph} {skips : GraphEdge → Prop} {t₀ : NodeTable}
    (h : RowsHold P t) (hstep : UnlockStep g skips t₀ t t') : RowsHold P t' := by
  cases hstep with
  | promote hpromotes => exact hrule.promotes h hpromotes
  | skipTarget | skipJoin => exact h.modify fun _ _ hrow ↦ hrule.congr hrow ⟨rfl, rfl, rfl⟩

theorem InputRule.supersede (h : RowsHold P t) (target : String) {f : NodeRun → NodeRun}
    (hf : ∀ row, NodeRun.SameInput row (f row)) : RowsHold P (supersedePlaceholder t target f) := by
  refine h.modify fun row _ hrow ↦ ?_
  split_ifs
  · exact hrule.congr hrow (hf row)
  · exact hrow

/-- A successful fan-out seeds the rows of its items. -/
theorem InputRule.materialize {handOff : HandOff} (hseeds : SeedsHold env P handOff) (h : RowsHold P t) :
    RowsHold P (materializeFanOutSuccess env.graph env.render now t handOff.finish.id.nodeId
      handOff.finish.output).nodes := by
  unfold materializeFanOutSuccess
  refine foldl_invariant (P := fun acc : Materialized ↦ RowsHold P acc.nodes) (fun acc edge _ hacc ↦ ?_) h
  unfold materializeEdge
  split
  · exact hacc
  · rename_i node hnode
    have hgraph : env.graph.node? node.id = some node := by rw [id_of_node? hnode, hnode]
    have hsuperseded := hrule.supersede hacc edge.target
      (f := fun row ↦ { row.supersede now with errorJson := none }) fun _ ↦ ⟨rfl, rfl, rfl⟩
    dsimp only
    split_ifs
    · exact .of_steps (fun _ _ ↦ hrule.promotes) (promoteTargets_steps (fun _ _ hstep ↦ hstep) _ _)
        hsuperseded
    · refine foldl_invariant (P := fun acc : Materialized ↦ RowsHold P acc.nodes)
        (fun acc keyed hkeyed hacc ↦ ?_) hsuperseded
      unfold spawnItem
      dsimp only
      split
      · rename_i existing hexisting
        split_ifs
        · exact hacc.modify fun row _ hrow ↦
            hrule.congr (hseeds.reused node hgraph keyed hkeyed row hrow) ⟨rfl, rfl, rfl⟩
        · exact hacc
      · exact hacc.insertNew (hseeds.created node hgraph keyed hkeyed)

theorem InputRule.ensure {handOff : HandOff} (hseeds : SeedsHold env P handOff) (h : RowsHold P t) :
    RowsHold P (ensureDownstreamIteration env.graph now t handOff.finish.id.nodeId
      handOff.finish.id.iterationKey handOff.finish.output).nodes := by
  unfold ensureDownstreamIteration
  split_ifs
  · exact h
  refine foldl_invariant (P := fun acc : Unlocked ↦ RowsHold P acc.nodes) (fun acc edge _ hacc ↦ ?_) h
  unfold ensureEdge
  split
  · exact hacc
  · rename_i node hnode
    have hgraph : env.graph.node? node.id = some node := by rw [id_of_node? hnode, hnode]
    split_ifs
    · exact .of_steps (fun _ _ ↦ hrule.promotes) (promote_steps (fun _ _ hstep ↦ hstep) acc edge.target) hacc
    · unfold spawnDownstream
      dsimp only
      split
      · split_ifs
        · exact hrule.setStatus hacc _ _
        · exact hacc
      · exact (hrule.supersede hacc node.id (f := NodeRun.supersede now) fun _ ↦ ⟨rfl, rfl, rfl⟩).insertNew
          (hseeds.downstream node hgraph)

theorem InputRule.handOff {handOff : HandOff} (hseeds : SeedsHold env P handOff)
    (h : RowsHold P handOff.nodes) : RowsHold P (handOff.apply env now) := by
  have hunlock : RowsHold P (unlockAfterNodeSuccess env.graph now handOff.nodes handOff.finish.id.nodeId
      handOff.finish.output).nodes :=
    .of_steps (fun _ _ ↦ hrule.unlockStep) (unlockAfterNodeSuccess_steps now _ _ _) h
  unfold HandOff.apply
  split
  · unfold propagate
    split_ifs
    · exact hrule.materialize hseeds h
    · exact hrule.ensure hseeds h
    · exact hunlock
  · exact hunlock

/-- `advance` claims rows and promotes others. -/
theorem InputRule.advance {st : EngineState} (h : RowsHold P st.nodes) :
    RowsHold P (advance env now st).nodes := by
  have hpass : RowsHold P (claimPass env now st).nodes := by
    unfold claimPass
    dsimp only
    refine foldl_invariant (P := fun acc : EngineState ↦ RowsHold P acc.nodes) (fun acc id _ hacc ↦ ?_) ?_
    · unfold claimAndEnqueue
      split
      · exact hacc
      · rename_i claimed hclaimed
        obtain ⟨row, hrow, hclaim⟩ := bind_eq_some_iff.mp hclaimed
        unfold claimReadyNode at hclaim
        rw [ite_none_right_eq_some] at hclaim
        refine hacc.put fun current hcurrent hheld ↦ ?_
        obtain rfl := mem_unique hrow hcurrent
        rw [← Option.some.inj hclaim.2]
        exact hrule.congr (hrule.claims hheld) ⟨rfl, rfl, rfl⟩
    · dsimp only
      split_ifs
      · exact .of_steps (fun _ _ ↦ hrule.promotes) (promoteReady_steps (fun _ _ hstep ↦ hstep) st.nodes) h
      · exact h
  unfold Workflows.advance
  split_ifs
  · exact h
  · exact h
  · exact hpass

theorem InputRule.followUp {st : EngineState} (h : RowsHold P st.nodes) (draw : ℚ) (id : RowId) :
    RowsHold P (followUp env now draw id st).nodes := by
  unfold Workflows.followUp
  split
  · split_ifs
    · exact h
    · exact hrule.advance h
    · exact h
  · split_ifs
    · exact hrule.advance h
    · exact h

end Rows

/-! ### Attempts -/

/-- The inputs that a worker prepares for a row it has begun. -/
def EngineState.prepare (env : EngineEnv) (st : EngineState) (graphNode : GraphNode) (id : RowId)
    (begun : NodeRun) : Except PyException Prepared :=
  prepareInputs env st.run (st.nodes.put id begun) graphNode id begun
    (asDict (st.run.contextSnapshot.get "node_outputs"))
    (asDict (st.run.contextSnapshot.get "initial_inputs"))

/-- The worker has begun the row as `begun`. -/
def EngineState.Begins (env : EngineEnv) (now : Time) (args : ExecuteArgs) (token : ℕ)
    (worker : Option String) (st : EngineState) (begun : NodeRun) : Prop :=
  (st.nodes.find args.row).bind (beginNodeExecution env.claimLease now token worker args.taskExecutionId) =
    some begun

/-- The property survives what an attempt writes to the row it has begun. -/
def AttemptHolds (env : EngineEnv) (P : RowId → NodeRun → Prop) (st : EngineState) (id : RowId)
    (begun : NodeRun) : Prop :=
  ∀ graphNode prepared, env.graph.node? id.nodeId = some graphNode →
    st.prepare env graphNode id begun = .ok prepared → P id begun →
    P id { begun with inputJson := prepared.inputs, executionKey := some prepared.executionKey }

/-- The property survives an operation of a state. -/
structure OpHolds (env : EngineEnv) (P : RowId → NodeRun → Prop) (now : Time) (op : Op)
    (st : EngineState) : Prop where
  seeds : ∀ h, op.handOff env now st = some h → SeedsHold env P h
  attempts : ∀ args token worker draw begun, op = .execute args token worker draw →
    st.Begins env now args token worker begun → AttemptHolds env P st args.row begun

section Ops

variable {P : RowId → NodeRun → Prop} (hrule : InputRule env P) {st st' : EngineState}

include hrule

theorem InputRule.recordOutcome (draw : ℚ) {id : RowId} {attempt : NodeRun} (policy : RetryPolicyDefaults)
    {before : Executed} (h : RowsHold P before.state.nodes) (hattempt : P id attempt) (verdict : Verdict) :
    RowsHold P (recordOutcome env now draw id attempt policy before verdict).1.state.nodes := by
  cases verdict with
  | failure error errorClass =>
    exact h.put fun _ _ _ ↦ hrule.congr hattempt (persistFailure_sameInput _ _ _ _ _ _)
  | result result output =>
    obtain ⟨status, raw, error, reason⟩ := result
    cases status with
    | succeeded | skipped | waiting => exact h.put fun _ _ _ ↦ hrule.congr hattempt ⟨rfl, rfl, rfl⟩
    | failed =>
      refine h.put fun _ _ _ ↦ hrule.congr hattempt ?_
      refine NodeRun.SameInput.trans ?_ (persistFailure_sameInput _ _ _ _ _ _)
      exact ⟨rfl, rfl, rfl⟩

theorem InputRule.settle {args : ExecuteArgs} {row begun : NodeRun} {graphNode : GraphNode}
    (h : RowsHold P st.nodes) (hrow : st.nodes.find args.row = some row) (hsame : row.SameInput begun)
    (hnode : env.graph.node? args.row.nodeId = some graphNode)
    (hattempt : AttemptHolds env P st args.row begun)
    {settled : Executed × Option Finish}
    (hsettle : settleReadyNode env now args graphNode
      { state := { st with nodes := st.nodes.put args.row begun }
        nodeOutputs := asDict (st.run.contextSnapshot.get "node_outputs") }
      (asDict (st.run.contextSnapshot.get "initial_inputs")) = .ok settled) :
    RowsHold P settled.1.state.nodes := by
  have hbegun : P args.row begun := hrule.congr (h _ _ hrow) hsame
  have hput : RowsHold P (st.nodes.put args.row begun) := h.put fun _ _ _ ↦ hbegun
  unfold settleReadyNode at hsettle
  rw [NodeTable.find_put_self _ _ hrow] at hsettle
  dsimp only at hsettle
  split_ifs at hsettle with hover
  · exact Except.ok.inj hsettle ▸ hput
  · simp only [bind, Except.bind] at hsettle
    split at hsettle
    · simp at hsettle
    · rename_i prepared hprepared
      split at hsettle
      · simp at hsettle
      · split at hsettle
        · simp at hsettle
        · rename_i verdict _
          simp only [pure, Except.pure, Except.ok.injEq] at hsettle
          have hbegins : P args.row
              (begun.beginAttempt now prepared args.taskExecutionId st.nextToken) := by
            refine hrule.congr (hattempt graphNode prepared hnode hprepared hbegun) ?_
            unfold NodeRun.beginAttempt
            refine NodeRun.SameInput.trans ?_ (recordTaskExecution_sameInput _ _)
            exact ⟨rfl, rfl, rfl⟩
          rw [← hsettle]
          exact hrule.recordOutcome _ _ (hput.put fun _ _ _ ↦ hbegins) hbegins verdict

theorem InputRule.execute {args : ExecuteArgs} {token : ℕ} {worker : Option String} {draw : ℚ}
    (h : RowsHold P st.nodes) (hop : OpHolds env P now (.execute args token worker draw) st)
    (hcall : executeClaimedNodeRun env now args token worker draw st = .ok st') : RowsHold P st'.nodes := by
  obtain ⟨hseeds, hattempts⟩ := hop
  unfold Op.handOff at hseeds
  unfold executeClaimedNodeRun at hcall
  by_cases hterminal : st.run.status.isTerminal
  · rw [if_pos hterminal] at hcall
    rw [← Except.ok.inj hcall]
    refine h.modify fun row _ hrow ↦ ?_
    by_cases hactive : row.status = .queued ∨ row.status = .running ∨ row.status = .ready
    · rw [if_pos hactive]
      exact hrule.congr hrow (abort_sameInput _ row)
    · rw [if_neg hactive]
      exact hrow
  simp only [if_neg hterminal] at hcall hseeds
  cases hbegin : (st.nodes.find args.row).bind
      (beginNodeExecution env.claimLease now token worker args.taskExecutionId) with
  | none =>
    rw [hbegin] at hcall
    exact Except.ok.inj hcall ▸ h
  | some begun =>
    rw [hbegin] at hcall
    simp only [hbegin] at hseeds
    obtain ⟨row, hrow, hrowBegun⟩ := bind_eq_some_iff.mp hbegin
    have hsame := beginNodeExecution_sameInput hrowBegun
    have hbegun : P args.row begun := hrule.congr (h _ _ hrow) hsame
    have hput : RowsHold P (st.nodes.put args.row begun) := h.put fun _ _ _ ↦ hbegun
    dsimp only at hcall
    by_cases habort : shouldAbortNode begun st.run
    · rw [if_pos habort] at hcall
      rw [← Except.ok.inj hcall]
      exact hput.put fun _ _ _ ↦ hrule.congr hbegun (abort_sameInput _ begun)
    simp only [if_neg habort] at hcall hseeds
    cases hnode : env.graph.node? args.row.nodeId with
    | none =>
      rw [hnode] at hcall
      rw [← Except.ok.inj hcall]
      exact hput.put fun _ _ _ ↦ hrule.congr hbegun ⟨rfl, rfl, rfl⟩
    | some graphNode =>
      rw [hnode] at hcall
      simp only [hnode] at hseeds
      simp only [executeReadyNode] at hcall
      cases hsettle : settleReadyNode env now args graphNode
          { state := { st with nodes := st.nodes.put args.row begun }
            nodeOutputs := asDict (st.run.contextSnapshot.get "node_outputs") }
          (asDict (st.run.contextSnapshot.get "initial_inputs")) with
      | error exc =>
        rw [hsettle] at hcall
        exact absurd hcall (by simp [Except.map, bind, Except.bind])
      | ok settled =>
        rw [hsettle] at hcall
        rw [hsettle] at hseeds
        simp only [Except.map, bind, Except.bind, pure, Except.pure, Except.ok.injEq] at hcall
        have hsettled := hrule.settle h hrow hsame hnode
          (hattempts args token worker draw begun rfl hbegin) hsettle
        have hhanded : RowsHold P (handOn env now graphNode.type settled).state.nodes := by
          obtain ⟨done, _ | finish⟩ := settled
          · exact hsettled
          · exact hrule.handOff (hseeds _ rfl) hsettled
        rw [← hcall]
        refine hrule.followUp ?_ draw args.row
        exact hhanded.modify fun row _ hrow ↦ hrule.congr hrow
          ((honourCancellation_sameInput _ row).trans (completeNode_sameInput _ _))

theorem InputRule.decideRow (h : RowsHold P st.nodes) (id : RowId) (row : NodeRun) (outcome : String)
    (output : JsonObject) (succeeds : Bool) (hrow : P id row) :
    RowsHold P (decideRow env now id row outcome output succeeds st).nodes := by
  unfold Workflows.decideRow
  by_cases hsucceeds : succeeds
  · rw [if_pos hsucceeds]
    exact .of_steps (fun _ _ ↦ hrule.unlockStep) (unlockAfterNodeSuccess_steps now _ _ _)
      (h.put fun _ _ _ ↦ hrule.congr hrow ⟨rfl, rfl, rfl⟩)
  · rw [if_neg hsucceeds]
    exact h.put fun _ _ _ ↦ hrule.congr hrow ⟨rfl, rfl, rfl⟩

theorem InputRule.completeResume {id : RowId} {output : JsonObject} {advances : Bool} {waits : List Wait}
    (h : RowsHold P st.nodes) :
    RowsHold P (completeResume env now id output advances waits st).nodes := by
  unfold Workflows.completeResume
  dsimp only
  split_ifs
  · exact hrule.advance h
  · exact h

theorem InputRule.resume {token : ℕ} {rawOutcome : String} {decision : JsonObject} {advances : Bool}
    (h : RowsHold P st.nodes)
    (hcall : resumeWaitingNode env now token rawOutcome decision advances st = .ok st') :
    RowsHold P st'.nodes := by
  obtain ⟨-, entry, hentry, ⟨-, rfl | ⟨-, rfl⟩⟩ | ⟨-, hrow⟩⟩ := resumeWaitingNode_eq_ok hcall
  · exact h
  · exact hrule.advance h
  · have hfind := NodeTable.find_of_byResumeToken hentry
    rw [resumeRow_eq hfind] at hrow
    cases hmarked : markResumed now token (pyLower (pyStrip rawOutcome)) decision entry.2 st.waits with
    | error exc =>
      rw [hmarked] at hrow
      exact absurd hrow (by simp [Except.map])
    | ok waits =>
      rw [hmarked] at hrow
      rw [← Except.ok.inj hrow]
      exact hrule.completeResume (hrule.decideRow h _ _ _ _ _ (h _ _ hfind))

/-- Every operation. -/
theorem InputRule.apply {op : Op} (h : RowsHold P st.nodes) (hop : OpHolds env P now op st)
    (hcall : op.apply env now st = .ok st') : RowsHold P st'.nodes := by
  cases op with
  | advance =>
    rw [← Except.ok.inj hcall]
    exact hrule.advance h
  | execute args token worker draw =>
    rw [Op.apply] at hcall
    exact hrule.execute h hop hcall
  | resume token outcome decision advances =>
    rw [Op.apply] at hcall
    exact hrule.resume h hcall
  | resolveEvent eventKey payload =>
    obtain ⟨⟨_, waits⟩, -, rfl⟩ := resolveEvent_eq_ok hcall
    exact h
  | resumeRun eventKey decision advances =>
    rw [Op.apply] at hcall
    obtain ⟨token, waits, -, hresume⟩ := resumeRun_eq_ok hcall
    exact hrule.resume (show RowsHold P ({ st with waits := waits } : EngineState).nodes from h) hresume
  | recover limit draw =>
    rw [← Except.ok.inj hcall]
    show RowsHold P (recoverStale env now limit draw st).nodes
    unfold recoverStale
    dsimp only
    split_ifs
    · exact h
    · exact foldl_invariant (P := RowsHold P)
        (fun _ _ _ hacc ↦ hacc.modify fun row _ hrow ↦ hrule.congr hrow (recover_sameInput _ row)) h
  | wake limit =>
    rw [← Except.ok.inj hcall]
    exact h
  | cancel =>
    rw [Op.apply] at hcall
    unfold cancelRun at hcall
    split_ifs at hcall
    · exact Except.ok.inj hcall ▸ h
    · rw [← Except.ok.inj hcall]
      exact h.mapValues fun _ row _ hrow ↦ hrule.congr hrow (cancel_sameInput row)
  | retryNode nodeId =>
    rw [Op.apply] at hcall
    obtain ⟨-, failed, -, -, -, rfl⟩ := retryNode_eq_ok hcall
    exact hrule.advance (h.modify fun _ _ hrow ↦ hrule.congr hrow ⟨rfl, rfl, rfl⟩)
  | retryFromNode nodeId =>
    rw [Op.apply] at hcall
    obtain ⟨-, failed, -, -, -, rfl⟩ := retryFromNode_eq_ok hcall
    refine hrule.advance (.of_steps (fun t t' ht hstep ↦ ?_) (resetLoop_steps env.graph nodeId _)
      (h.modify fun _ _ hrow ↦ hrule.congr hrow ⟨rfl, rfl, rfl⟩))
    obtain ⟨id, row, -, -⟩ := hstep
    refine ht.modify fun row _ hrow ↦ ?_
    unfold NodeRun.resetDescendantToPending
    split_ifs
    · exact hrow
    · exact hrule.congr (hrule.resets hrow) ⟨rfl, rfl, rfl⟩

theorem InputRule.run {op : Op} (h : RowsHold P st.nodes) (hop : OpHolds env P now op st) :
    RowsHold P (op.run env now st).nodes := by
  unfold Op.run
  split
  · rename_i st' hcall
    exact hrule.apply h hop hcall
  · exact h

theorem Reachable.rowsHold {allowed : Time → Op → EngineState → Prop}
    (hops : ∀ now op st, allowed now op st → RowsHold P st.nodes → OpHolds env P now op st)
    (hst : Reachable env allowed st) : RowsHold P st.nodes := by
  obtain ⟨now, mode, triggerPayload, snapshot, hrun⟩ := hst
  refine invariant (P := fun st : EngineState ↦ RowsHold P st.nodes) ?_ hrun ?_
  · intro st st' h hstep
    cases hstep with
    | call now op _ hallowed => exact hrule.run h (hops now op st hallowed h)
    | deliver now op _ i _ _ hallowed =>
      have hrest : RowsHold P ({ st with outbox := st.outbox.eraseIdx i } : EngineState).nodes := h
      exact hrule.run hrest (hops now op _ hallowed h)
  · have hstart : RowsHold P (startTable env.graph) := by
      intro id row hrow
      rw [find_startTable] at hrow
      split_ifs at hrow with hkey
      obtain ⟨node, hnode, rfl⟩ := map_eq_some_iff.mp hrow
      have hid := id_of_node? hnode
      have hstarts := hrule.starts node (by rw [hid, hnode])
      obtain ⟨nodeId, iterationKey⟩ := id
      rw [show iterationKey = "" from hkey, ← show node.id = nodeId from hid]
      exact hstarts
    cases mode with
    | inline => exact hrule.advance hstart
    | enqueued | idle => exact hstart

end Ops

end ContentGenerator.Workflows
