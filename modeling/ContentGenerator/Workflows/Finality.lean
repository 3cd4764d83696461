import ContentGenerator.Workflows.Topological

/-!
# A success is final

No operation takes a success back or rewrites its output (`Operation.succeeded_final`). `Operation`
lists the transactions of the engine and, as operations of their own, the functions they are made of.
The status filters differ from one operation to the next; what they have in common is that quiet
steps keep settled rows, a hand-off touches only rows no worker has begun, and a reset spares rows
that succeeded.
-/

namespace ContentGenerator.Workflows

open Lib Relation Option KeyedTable NodeRun
open ReflTransGen (invariant)

variable {h : HandOff} {row : NodeRun} {st : EngineState} {env : EngineEnv} {now : Time} {g : WorkflowGraph}
  {t t' : NodeTable}

/-! ### Along the steps -/

def SucceededWith (id : RowId) (output : JsonObject) (t : NodeTable) : Prop :=
  ∃ row, t.find id = some row ∧ row.status = .succeeded ∧ row.outputJson = output

variable {id : RowId} {output : JsonObject}

/-- A step that changes only rows no worker has begun. -/
theorem SucceededWith.of_find (h : SucceededWith id output t)
    (hkept : ∀ row, t.find id = some row → ¬ row.status.isSkippable → t'.find id = some row) :
    SucceededWith id output t' := by
  obtain ⟨row, hrow, hstatus, houtput⟩ := h
  refine ⟨row, hkept row hrow ?_, hstatus, houtput⟩
  rw [hstatus]
  decide

/-- A write to one row. Assumes: the write keeps a success and its output. -/
theorem SucceededWith.modify (h : SucceededWith id output t) {other : RowId}
    {f : NodeRun → NodeRun}
    (hf : ∀ row, t.find other = some row → row.status = .succeeded →
      (f row).status = .succeeded ∧ (f row).outputJson = row.outputJson) :
    SucceededWith id output (t.modify other f) := by
  obtain ⟨row, hrow, hstatus, houtput⟩ := h
  by_cases hid : id = other
  · subst hid
    obtain ⟨hstatus', houtput'⟩ := hf row hrow hstatus
    refine ⟨f row, ?_, hstatus', houtput'.trans houtput⟩
    rw [find_modify, if_pos rfl, hrow]
    rfl
  · exact ⟨row, by rw [find_modify_of_ne _ _ hid, hrow], hstatus, houtput⟩

theorem SucceededWith.quietStep (h : SucceededWith id output t) (hstep : QuietStep g t t') :
    SucceededWith id output t' := by
  cases hstep with
  | promote hpromotes => exact h.of_find fun _ hrow ↦ find_of_promotes hpromotes hrow
  | write f hf =>
    obtain ⟨row, hrow, hstatus, houtput⟩ := h
    obtain ⟨hstatus', houtput', -⟩ := (hf id row hrow).settled (by rw [hstatus]; decide)
    refine ⟨f id row, ?_, hstatus'.trans hstatus, houtput'.trans houtput⟩
    rw [find_mapValues, hrow]
    rfl

theorem SucceededWith.handsOff {row' : NodeRun}
    (hsucceeded : SucceededWith id output st.nodes) (hoff : HandsOff g st h row row') :
    SucceededWith id output h.nodes := by
  rw [hoff.nodes]
  refine hsucceeded.modify fun current hcurrent hstatus ↦ ?_
  obtain rfl := mem_unique hoff.find hcurrent
  obtain ⟨hstatus', houtput', -⟩ := hoff.proceeds.settled (by rw [hstatus]; decide)
  exact ⟨hstatus'.trans hstatus, houtput'⟩

theorem SucceededWith.resetStep {source : String} (h : SucceededWith id output t)
    (hstep : ResetStep g source t t') : SucceededWith id output t' := by
  cases hstep with
  | intro other row _ _ =>
    refine h.modify fun current _ hstatus ↦ ?_
    rw [resetDescendantToPending, if_pos hstatus]
    exact ⟨hstatus, rfl⟩

theorem SucceededWith.unlockAfterNodeSuccess (h : SucceededWith id output t) (now : Time)
    (sourceId : String) (branchOutput : JsonObject) :
    SucceededWith id output (unlockAfterNodeSuccess g now t sourceId branchOutput).nodes :=
  invariant (fun _ _ hinv hstep ↦
    hinv.of_find fun _ hrow ↦ find_of_unlockStep hstep hrow)
    (unlockAfterNodeSuccess_steps now t sourceId branchOutput) h

theorem SucceededWith.materializeFanOutSuccess (h : SucceededWith id output t)
    (render : Json → String) (now : Time) (fanOutNodeId : String) (fanOutput : JsonObject) :
    SucceededWith id output (materializeFanOutSuccess g render now t fanOutNodeId fanOutput).nodes :=
  invariant (fun _ _ hinv hstep ↦
    hinv.of_find fun _ hrow ↦ find_of_spawnStep hstep hrow)
    (materializeFanOutSuccess_steps render now t fanOutNodeId fanOutput) h

theorem SucceededWith.ensureDownstreamIteration (h : SucceededWith id output t) (now : Time)
    (sourceNodeId iterationKey : String) (upstream : JsonObject) :
    SucceededWith id output
      (ensureDownstreamIteration g now t sourceNodeId iterationKey upstream).nodes :=
  invariant (fun _ _ hinv hstep ↦
    hinv.of_find fun _ hrow ↦ find_of_spawnStep hstep hrow)
    (ensureDownstreamIteration_steps now t sourceNodeId iterationKey upstream) h

/-- The cascade from any node, whether or not an edge asked for it. -/
theorem SucceededWith.cascadeSkip (h : SucceededWith id output t) (now : Time) (nodeId : String) :
    SucceededWith id output (cascadeSkip g now t nodeId).nodes := by
  have hsteps : ReflTransGen (UnlockStep g (fun _ ↦ True) t) t (Workflows.cascadeSkip g now t
      (GraphEdge.mk nodeId nodeId none none none).target).nodes :=
    cascadeSkip_steps trivial now .refl
  exact invariant (fun _ _ hinv hstep ↦
    hinv.of_find fun _ hrow ↦ find_of_unlockStep hstep hrow) hsteps h

theorem SucceededWith.handOff (env : EngineEnv) (now : Time)
    (hsucceeded : SucceededWith id output h.nodes) : SucceededWith id output (h.apply env now) :=
  hsucceeded.of_find fun _ hrow ↦ HandOff.find_apply env now h hrow

/-- An execution on its own, of a row in any status. -/
theorem SucceededWith.executeReadyNode {args : ExecuteArgs} {graphNode : GraphNode}
    {before done : Executed} {initialInputs : JsonObject}
    (h : SucceededWith id output before.state.nodes)
    (hdone : executeReadyNode env now args graphNode before initialInputs = .ok done) :
    SucceededWith id output done.state.nodes := by
  unfold Workflows.executeReadyNode at hdone
  cases hsettle : settleReadyNode env now args graphNode before initialInputs with
  | error exc =>
    rw [hsettle] at hdone
    exact absurd hdone (by simp [Except.map])
  | ok settled =>
    rw [hsettle] at hdone
    cases hdone
    -- a row that is done already is left alone, any other row is replaced
    have hnodes : SucceededWith id output settled.1.state.nodes := by
      cases hrow : before.state.nodes.find args.row with
      | none =>
        rw [settleReadyNode, hrow] at hsettle
        rw [← Except.ok.inj hsettle]
        exact h
      | some row =>
        by_cases hover : row.status = .succeeded ∨ row.status = .skipped ∨ row.status = .waiting
        · rw [settleReadyNode, hrow] at hsettle
          simp only [if_pos hover] at hsettle
          rw [← Except.ok.inj hsettle]
          exact h
        · obtain ⟨impl, row', -, hsettled⟩ := settleReadyNode_settled hrow hover hsettle
          rw [hsettled.nodes]
          refine h.modify fun current hcurrent hstatus ↦ ?_
          obtain rfl := mem_unique hrow hcurrent
          exact absurd (.inl hstatus) hover
    unfold handOn
    split
    · exact hnodes
    · rename_i finish hfinish
      exact hnodes.handOff env now
        (h := { finish := finish, nodeType := some graphNode.type, nodes := settled.1.state.nodes })

theorem SucceededWith.run (op : Op) (h : SucceededWith id output st.nodes) :
    SucceededWith id output (op.run env now st).nodes := by
  refine Op.run_rows (fun _ _ hinv hstep ↦ hinv.quietStep hstep) ?_ ?_ h
  · intro handOff row row' _ hoff
    exact (h.handsOff hoff).handOff env now
  · intro nodeId t t' _ _ ht _ hresets
    exact invariant (fun _ _ hinv hstep ↦ hinv.resetStep hstep) hresets ht

/-! ### The operations -/

/-- The operations that write row statuses: the transactions of the engine, and the functions they
call, each as an operation of its own. -/
inductive Operation
  | transaction (op : Op)
  | claimReadyNode (row : RowId) (token : ℕ)
  | beginNodeExecution (row : RowId) (token : ℕ) (workerTaskId : Option String)
      (taskExecutionId : Option ℕ)
  | executeReadyNode (args : ExecuteArgs) (graphNode : GraphNode)
      (nodeOutputs initialInputs : JsonObject)
  | unlockAfterNodeSuccess (sourceId : String) (output : JsonObject)
  | cascadeSkip (nodeId : String)
  | materializeFanOutSuccess (fanOutNodeId : String) (output : JsonObject)
  | ensureDownstreamIteration (sourceNodeId iterationKey : String) (output : JsonObject)
  | abortNodeForCancellation (row : RowId) (token : Option ℕ)

def Operation.rows (env : EngineEnv) (now : Time) (st : EngineState) : Operation → NodeTable
  | .transaction op => (op.run env now st).nodes
  | .claimReadyNode id token =>
    st.nodes.modify id fun row ↦
      (Workflows.claimReadyNode env.runId env.claimLease now token id row).getD row
  | .beginNodeExecution id token worker task =>
    st.nodes.modify id fun row ↦
      (Workflows.beginNodeExecution env.claimLease now token worker task row).getD row
  | .executeReadyNode args graphNode nodeOutputs initialInputs =>
    match Workflows.executeReadyNode env now args graphNode
        { state := st, nodeOutputs := nodeOutputs } initialInputs with
    | .ok done => done.state.nodes
    | .error _ => st.nodes
  | .unlockAfterNodeSuccess sourceId output =>
    (Workflows.unlockAfterNodeSuccess env.graph now st.nodes sourceId output).nodes
  | .cascadeSkip nodeId => (Workflows.cascadeSkip env.graph now st.nodes nodeId).nodes
  | .materializeFanOutSuccess fanOutNodeId output =>
    (Workflows.materializeFanOutSuccess env.graph env.render now st.nodes fanOutNodeId output).nodes
  | .ensureDownstreamIteration sourceNodeId iterationKey output =>
    (Workflows.ensureDownstreamIteration env.graph now st.nodes sourceNodeId iterationKey
      output).nodes
  | .abortNodeForCancellation id token => st.nodes.modify id fun row ↦ row.abort now token

theorem abort_of_succeeded (token : Option ℕ) (h : row.status = .succeeded) :
    (row.abort now token).status = .succeeded ∧
      (row.abort now token).outputJson = row.outputJson := by
  unfold abort completeNode
  simp only [if_pos h]
  split_ifs
  · exact ⟨h, rfl⟩
  · exact ⟨h, rfl⟩

/-- A row that has succeeded before an operation has succeeded after it, with the same output: for
every operation, in every state. Assumes: the row has succeeded. -/
theorem Operation.succeeded_final (env : EngineEnv) (now : Time) (operation : Operation)
    (st : EngineState) (id : RowId) (row : NodeRun) (hrow : st.nodes.find id = some row)
    (hstatus : row.status = .succeeded) :
    ∃ row', (operation.rows env now st).find id = some row' ∧ row'.status = .succeeded ∧
      row'.outputJson = row.outputJson := by
  have h : SucceededWith id row.outputJson st.nodes := ⟨row, hrow, hstatus, rfl⟩
  cases operation with
  | transaction op => exact h.run op
  | claimReadyNode other token =>
    refine h.modify fun current _ hcurrent ↦ ?_
    simp [Workflows.claimReadyNode, hcurrent]
  | beginNodeExecution other token worker task =>
    refine h.modify fun current _ hcurrent ↦ ?_
    simp [Workflows.beginNodeExecution, hcurrent, NodeStatus.isClaimed]
  | executeReadyNode args graphNode nodeOutputs initialInputs =>
    simp only [Operation.rows]
    split
    · rename_i done hdone
      have hbefore : SucceededWith id row.outputJson
          (Executed.mk st nodeOutputs).state.nodes := h
      exact hbefore.executeReadyNode hdone
    · exact h
  | unlockAfterNodeSuccess sourceId output => exact h.unlockAfterNodeSuccess now sourceId output
  | cascadeSkip nodeId => exact h.cascadeSkip now nodeId
  | materializeFanOutSuccess fanOutNodeId output =>
    exact h.materializeFanOutSuccess env.render now fanOutNodeId output
  | ensureDownstreamIteration sourceNodeId iterationKey output =>
    exact h.ensureDownstreamIteration now sourceNodeId iterationKey output
  | abortNodeForCancellation other token =>
    exact h.modify fun current _ hcurrent ↦ abort_of_succeeded token hcurrent

/-- The trigger that has succeeded keeps its success when the run is cancelled. -/
theorem delayRun_cancel_keeps_trigger :
    ∃ row, delayRun.nodes.find ⟨"t", ""⟩ = some row ∧ row.status = .succeeded ∧
      ∃ row', ((Operation.transaction .cancel).rows (catalogueEnv delayGraph repairedGlobals) 2
          delayRun).find ⟨"t", ""⟩ = some row' ∧ row'.status = .succeeded ∧
        row'.outputJson = row.outputJson := by
  have hsucceeded : (delayRun.nodes.find ⟨"t", ""⟩).map status = some .succeeded := by
    decide +kernel
  obtain ⟨row, hrow, hstatus⟩ := map_eq_some_iff.mp hsucceeded
  exact ⟨row, hrow, hstatus, Operation.succeeded_final _ 2 (.transaction .cancel) _ _ row hrow hstatus⟩

end ContentGenerator.Workflows
