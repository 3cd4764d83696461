import ContentGenerator.Lib.Overlap
import ContentGenerator.Workflows.NodeResults
import ContentGenerator.Workflows.ResolveInputs
import ContentGenerator.Workflows.Runs

/-!
# The snapshot of two overlapping executions

Every execution reads `run.context_snapshot` at its start and writes the whole document back with its
own output at its end (`engine_node_task.py`). The run has no version column and the transactions are
read committed, so two executions of one run share the snapshot as a column that each reads, reloads
and commits (`Lib.Column`). The document that is written back holds the outputs as the resolution of the
inputs has left them: with the lists that the incoming edges have extended.

`execute_contextSnapshot` says what an execution that finishes its row makes of the snapshot it has
read, and `outputsKept_iff` when both outputs are in the snapshot that is committed in the end.
-/

namespace ContentGenerator.Workflows

open Lib List JsonObject

variable {env : EngineEnv} {now : Time}

/-! ### What an execution writes -/

/-- `snapshot["node_outputs"]`. -/
def nodeOutputsOf (snapshot : JsonObject) : JsonObject :=
  asDict (snapshot.get "node_outputs")

/-- The snapshot with the output of a finished row, whose edges have added items to lists of the outputs. -/
def writeSnapshot (added : List (OutputList × Json)) (snapshot : JsonObject) (finish : Finish) : JsonObject :=
  snapshot.set "node_outputs"
    (.obj (storeOutput (extendOutputs added (nodeOutputsOf snapshot)) finish.id finish.output))

/-- The key of a finished row in `node_outputs`. -/
def Finish.storageKey (finish : Finish) : String :=
  outputStorageKey finish.id.nodeId finish.id.iterationKey

theorem get_storeOutput (nodeOutputs : JsonObject) (id : RowId) (output : JsonObject)
    (key : String) :
    (storeOutput nodeOutputs id output).get key =
      if key = outputStorageKey id.nodeId id.iterationKey then some (.obj output)
      else nodeOutputs.get key := by
  unfold storeOutput
  dsimp only
  split_ifs with hempty hkey hkey
  · have hnode : key = id.nodeId := by
      rw [hkey, hempty]
      rfl
    rw [hnode, get_set_self]
  · have hnode : key ≠ id.nodeId := by
      intro h
      refine hkey ?_
      rw [h, hempty]
      rfl
    rw [get_set_of_ne _ _ hnode, get_set_of_ne _ _ hkey]
  · rw [hkey, get_set_self]
  · exact get_set_of_ne _ _ hkey

/-- The outputs in a snapshot after a write. -/
theorem get_writeSnapshot (added : List (OutputList × Json)) (snapshot : JsonObject) (finish : Finish)
    (key : String) :
    JsonObject.get (nodeOutputsOf (writeSnapshot added snapshot finish)) key =
      if key = finish.storageKey then some (.obj finish.output)
      else ((nodeOutputsOf snapshot).get key).map (extendEntry added key) := by
  have hwritten : nodeOutputsOf (writeSnapshot added snapshot finish) =
      storeOutput (extendOutputs added (nodeOutputsOf snapshot)) finish.id finish.output := by
    rw [nodeOutputsOf, writeSnapshot, get_set_self]
    rfl
  rw [hwritten, get_storeOutput, get_extendOutputs]
  rfl

theorem contextSnapshot_followUp (draw : ℚ) (id : RowId) (st : EngineState) :
    (followUp env now draw id st).run.contextSnapshot = st.run.contextSnapshot := by
  unfold followUp
  split
  · split_ifs
    · rfl
    · exact contextSnapshot_advance st
    · rfl
  · split_ifs
    · exact contextSnapshot_advance st
    · rfl

/-- An execution that finishes its row writes the snapshot it has read with the output of the row, and with
the outputs as the resolution of its inputs has left them. -/
theorem execute_contextSnapshot {args : ExecuteArgs} {token : ℕ} {worker : Option String} {draw : ℚ}
    {st : EngineState} {h : HandOff}
    (hop : Op.handOff env now (.execute args token worker draw) st = some h) :
    ∃ begun graphNode prepared,
      (st.nodes.find args.row).bind
          (beginNodeExecution env.claimLease now token worker args.taskExecutionId) = some begun ∧
        env.graph.node? args.row.nodeId = some graphNode ∧
        prepareInputs env st.run (st.nodes.put args.row begun) graphNode args.row begun
          (nodeOutputsOf st.run.contextSnapshot) (asDict (st.run.contextSnapshot.get "initial_inputs")) =
            .ok prepared ∧
        ((Op.execute args token worker draw).run env now st).run.contextSnapshot =
          st.run.contextSnapshot.set "node_outputs"
            (.obj (storeOutput prepared.nodeOutputs h.finish.id h.finish.output)) := by
  unfold Op.handOff at hop
  dsimp only at hop
  split_ifs at hop with hterminal
  cases hbegin : (st.nodes.find args.row).bind
      (beginNodeExecution env.claimLease now token worker args.taskExecutionId) with
  | none =>
    rw [hbegin] at hop
    cases hop
  | some begun =>
    simp only [hbegin] at hop
    split_ifs at hop with habort
    cases hnode : env.graph.node? args.row.nodeId with
    | none =>
      rw [hnode] at hop
      cases hop
    | some graphNode =>
      simp only [hnode] at hop
      cases hsettle : settleReadyNode env now args graphNode
          { state := { st with nodes := st.nodes.put args.row begun }
            nodeOutputs := asDict (st.run.contextSnapshot.get "node_outputs") }
          (asDict (st.run.contextSnapshot.get "initial_inputs")) with
      | error exc =>
        rw [hsettle] at hop
        cases hop
      | ok settled =>
        rw [hsettle] at hop
        obtain ⟨row, hrow, hrowBegun⟩ := Option.bind_eq_some_iff.mp hbegin
        have hrunning : begun.status = .running := (beginNodeExecution_eq_some hrowBegun).2.2.1
        obtain ⟨prepared, row', hprepared, hsettled⟩ := settleReadyNode_settled
          (NodeTable.find_put_self _ _ hrow) (by rw [hrunning]; decide) hsettle
        obtain ⟨done, finish⟩ := settled
        cases finish with
        | none => cases hop
        | some finish =>
          cases hop
          refine ⟨begun, graphNode, prepared, rfl, rfl, hprepared, ?_⟩
          have hstored : done.nodeOutputs = storeOutput prepared.nodeOutputs finish.id finish.output := by
            rcases hsettled.outcome with ⟨hnone, -⟩ | ⟨hnone, -⟩ | ⟨hsome, -, houtputs, -⟩
            · cases hnone
            · cases hnone
            · cases hsome
              exact houtputs
          have hrun : done.state.run = st.run := hsettled.run
          have happly : (Op.execute args token worker draw).apply env now st =
              .ok (followUp env now draw args.row (completeExecution env now token args.row
                (handOn env now graphNode.type (done, some finish)))) := by
            simp only [Op.apply, executeClaimedNodeRun, if_neg hterminal, hbegin, if_neg habort, hnode,
              executeReadyNode, hsettle]
            rfl
          rw [Op.run, happly]
          simp only [contextSnapshot_followUp, completeExecution, contextSnapshot_finalize, handOn]
          rw [hrun, hstored]

/-! ### Two executions -/

/-- The execution of a claimed row with what its session loads, apart from the snapshot. -/
structure Execution where
  now : Time
  args : ExecuteArgs
  token : ℕ
  workerTaskId : Option String := none
  draw : ℚ := 0
  loaded : EngineState

namespace Execution

/-- The state the session works on when it has read a snapshot. -/
def view (execution : Execution) (snapshot : JsonObject) : EngineState :=
  { execution.loaded with run := { execution.loaded.run with contextSnapshot := snapshot } }

def op (execution : Execution) : Op :=
  .execute execution.args execution.token execution.workerTaskId execution.draw

/-- The finished row, when the node succeeds or is skipped. -/
def finish (env : EngineEnv) (execution : Execution) (snapshot : JsonObject) : Option Finish :=
  (execution.op.handOff env execution.now (execution.view snapshot)).map HandOff.finish

/-- The snapshot the session assigns to the run, when its row finishes. -/
def write (env : EngineEnv) (execution : Execution) (snapshot : JsonObject) : Option JsonObject :=
  (execution.finish env snapshot).map fun _ ↦
    (execution.op.run env execution.now (execution.view snapshot)).run.contextSnapshot

/-- What the session resolves the inputs of its row with. -/
def resolving (env : EngineEnv) (execution : Execution) (snapshot : JsonObject) : Option ResolveArgs := do
  let begun ← (execution.loaded.nodes.find execution.args.row).bind
    (beginNodeExecution env.claimLease execution.now execution.token execution.workerTaskId
      execution.args.taskExecutionId)
  let graphNode ← env.graph.node? execution.args.row.nodeId
  let impl ← env.registry.get graphNode.type graphNode.version
  return resolveArgs env (execution.view snapshot).run (execution.loaded.nodes.put execution.args.row begun)
    graphNode impl (nodeOutputsOf snapshot) (asDict (snapshot.get "initial_inputs"))

/-- What the incoming edges of the row's node add to lists of the outputs in the snapshot. -/
def additions (env : EngineEnv) (execution : Execution) (snapshot : JsonObject) : List (OutputList × Json) :=
  ((execution.resolving env snapshot).map ResolveArgs.additions).getD []

/-- The incoming edges of the row's node extend no list that the output of the other row holds. -/
def Spares (env : EngineEnv) (execution : Execution) (snapshot : JsonObject) (other : Finish) : Prop :=
  ∀ args, execution.resolving env snapshot = some args →
    ∀ key items, (key, .arr items) ∈ other.output → ¬ args.ExtendsList ⟨other.storageKey, key⟩

variable {execution : Execution} {snapshot : JsonObject} {finish : Finish}
  {others : ResolveArgs → Except PyException JsonObject}

theorem write_eq (hresolve : env.resolveNodeInputs = resolveNodeInputs others)
    (h : execution.finish env snapshot = some finish) :
    execution.write env snapshot =
      some (writeSnapshot (execution.additions env snapshot) snapshot finish) := by
  unfold write
  rw [h, Option.map_some]
  obtain ⟨handOff, hop, rfl⟩ := Option.map_eq_some_iff.mp h
  obtain ⟨begun, graphNode, prepared, hbegin, hnode, hprepared, hwritten⟩ := execute_contextSnapshot hop
  obtain ⟨himpl, -, resolved, hresolved, houtputs, -⟩ := prepareInputs_cases hprepared
  have hargs : execution.resolving env snapshot = some (resolveArgs env (execution.view snapshot).run
      (execution.loaded.nodes.put execution.args.row begun) graphNode prepared.impl (nodeOutputsOf snapshot)
      (asDict (snapshot.get "initial_inputs"))) := by
    change (execution.loaded.nodes.find execution.args.row).bind _ = _ at hbegin
    simp only [resolving, hbegin, hnode, himpl, Option.bind_eq_bind, Option.bind_some]
    rfl
  rw [hresolve] at hresolved
  have hadded := added_of_resolveNodeInputs hresolved
  rw [op, hwritten, houtputs, hadded, additions, hargs]
  rfl

/-- An output stays as it is when no list that it holds is extended. -/
theorem spares_iff : execution.Spares env snapshot finish ↔
    extendOutput (execution.additions env snapshot) finish.storageKey finish.output = finish.output := by
  unfold Spares additions
  rw [extendOutput_eq_self_iff]
  cases execution.resolving env snapshot with
  | none => simp
  | some args =>
    simp only [Option.some.injEq, forall_eq', Option.map_some, Option.getD_some, addedTo_additions]

end Execution

/-- The shared snapshot after a schedule of two executions. -/
def playExecutions (env : EngineEnv) (executions : Bool → Execution)
    (schedule : List (Bool × ColumnEvent)) (snapshot : JsonObject) : Column JsonObject :=
  (Column.start snapshot).play (fun who ↦ (executions who).write env) schedule

/-- The row an execution finishes on the snapshot it has read. -/
def finishedBy (env : EngineEnv) (executions : Bool → Execution) (column : Column JsonObject)
    (who : Bool) : Option Finish :=
  (column.session who).bind fun loaded ↦ (executions who).finish env loaded.1

/-- A snapshot holds the output of a finished row, and every successor of its node collects it. -/
structure KeepsOutput (snapshot : JsonObject) (finish : Finish) : Prop where
  stored : (nodeOutputsOf snapshot).get finish.storageKey = some (.obj finish.output)
  collected : ∀ (t : NodeTable) (row : NodeRun),
    (finish.id, row) ∈ t.iterations finish.id.nodeId →
      finish.output ∈ upstreamOutputsOf (nodeOutputsOf snapshot) t finish.id.nodeId

/-- An output under its key is collected. -/
theorem keepsOutput_iff (snapshot : JsonObject) (finish : Finish) :
    KeepsOutput snapshot finish ↔
      (nodeOutputsOf snapshot).get finish.storageKey = some (.obj finish.output) := by
  refine ⟨KeepsOutput.stored, fun hstored ↦ ⟨hstored, fun t row hmem ↦ ?_⟩⟩
  unfold upstreamOutputsOf
  dsimp only
  split_ifs with hiterated
  · refine mem_filterMap.mpr ⟨_, hmem, ?_⟩
    unfold iterationOutput
    rw [show JsonObject.get (nodeOutputsOf snapshot)
      (outputStorageKey finish.id.nodeId finish.id.iterationKey) = _ from hstored]
  · -- a single row without an iteration key: its output is stored under the node id
    have hkey : finish.id.iterationKey = "" := by
      cases hrows : t.iterations finish.id.nodeId with
      | nil =>
        rw [hrows] at hmem
        simp at hmem
      | cons first rest =>
        rw [hrows] at hmem hiterated
        simp only [length_cons, head?_cons, Option.any_some, ne_eq, decide_not,
          Bool.not_eq_true', not_or, Bool.not_eq_false] at hiterated
        have hrest : rest = [] := length_eq_zero_iff.mp (by omega)
        rw [hrest, mem_singleton] at hmem
        rw [← hmem] at hiterated
        simpa using hiterated.2
    have hnode : finish.storageKey = finish.id.nodeId := by
      unfold Finish.storageKey
      rw [hkey]
      rfl
    rw [hnode] at hstored
    rw [hstored]
    exact mem_singleton_self _

/-- When two overlapping executions lose neither output. Outputs under one key have to be equal. Else the last
committer either works on what the other has committed, and its edges spare the other's output; or it changes
nothing and reloads the run before the other's commit, and the edges of the other spare its output; or it
writes back an older entry of the other, which is the other's output when its edges have extended it. -/
def OutputsSafe (env : EngineEnv) (executions : Bool → Execution) (snapshot : JsonObject)
    (schedule : List (Bool × ColumnEvent)) (early late : Finish) : Prop :=
  let first := executions !lastCommitter schedule
  let last := executions (lastCommitter schedule)
  if early.storageKey = late.storageKey then early.output = late.output
  else if sees .read schedule then
    last.Spares env (writeSnapshot (first.additions env snapshot) snapshot early) early
  else if ¬ sees .refresh schedule ∧ writeSnapshot (last.additions env snapshot) snapshot late = snapshot then
    first.Spares env snapshot late
  else
    ∃ older, (nodeOutputsOf snapshot).get early.storageKey = some (.obj older) ∧
      extendOutput (last.additions env snapshot) early.storageKey older = early.output

variable {added : List (OutputList × Json)} {snapshot : JsonObject}

/-- A row's own output is in the snapshot that its execution writes. -/
theorem keepsOutput_writeSnapshot_self (finish : Finish) :
    KeepsOutput (writeSnapshot added snapshot finish) finish := by
  rw [keepsOutput_iff, get_writeSnapshot, if_pos rfl]

theorem keepsOutput_writeSnapshot (finish other : Finish) :
    KeepsOutput (writeSnapshot added snapshot other) finish ↔
      if finish.storageKey = other.storageKey then finish.output = other.output
      else ∃ older, (nodeOutputsOf snapshot).get finish.storageKey = some (.obj older) ∧
        extendOutput added finish.storageKey older = finish.output := by
  rw [keepsOutput_iff, get_writeSnapshot]
  split_ifs
  · simp [eq_comm]
  · rw [Option.map_eq_some_iff]
    constructor
    · rintro ⟨older, hstored, hextended⟩
      cases older with
      | obj older => exact ⟨older, hstored, Json.obj.inj hextended⟩
      | _ => cases hextended
    · rintro ⟨older, hstored, hextended⟩
      exact ⟨.obj older, hstored, congrArg Json.obj hextended⟩

/-- An output that is in a snapshot is in it after the write of another row when the write spares it. -/
theorem keepsOutput_writeSnapshot_of_stored {finish other : Finish}
    (hkeys : finish.storageKey ≠ other.storageKey)
    (hstored : (nodeOutputsOf snapshot).get finish.storageKey = some (.obj finish.output)) :
    KeepsOutput (writeSnapshot added snapshot other) finish ↔
      extendOutput added finish.storageKey finish.output = finish.output := by
  rw [keepsOutput_writeSnapshot, if_neg hkeys]
  constructor
  · rintro ⟨older, holder, hextended⟩
    obtain rfl := Json.obj.inj (Option.some.inj (hstored.symm.trans holder))
    exact hextended
  · exact fun hextended ↦ ⟨_, hstored, hextended⟩

/-- For every interleaving of two executions of one run that both finish their rows: the outputs of
both are in the snapshot that is committed in the end, and collected from it, exactly when
`OutputsSafe` holds. Assumes: inputs are resolved by the router, and the schedule is an interleaving of the
reads, reloads and commits of the two. -/
theorem outputsKept_iff (env : EngineEnv) (others : ResolveArgs → Except PyException JsonObject)
    (hresolve : env.resolveNodeInputs = resolveNodeInputs others) (executions : Bool → Execution)
    (snapshot : JsonObject) (schedule : List (Bool × ColumnEvent))
    (hschedule : schedule ∈ interleavings readModifyWrite readModifyWrite) (early late : Finish)
    (hearly : finishedBy env executions (playExecutions env executions schedule snapshot)
      (!lastCommitter schedule) = some early)
    (hlate : finishedBy env executions (playExecutions env executions schedule snapshot)
      (lastCommitter schedule) = some late) :
    (KeepsOutput (playExecutions env executions schedule snapshot).committed early ∧
        KeepsOutput (playExecutions env executions schedule snapshot).committed late) ↔
      OutputsSafe env executions snapshot schedule early late := by
  obtain ⟨⟨hreadEarly, hreadLate⟩, hcommitted⟩ := Column.play_interleaving
    (fun who ↦ (executions who).write env) hschedule snapshot
  have hfinish : ∀ {who : Bool} {finish : Finish} {value : JsonObject},
      (((playExecutions env executions schedule snapshot).session who).map Prod.fst = some value) →
      finishedBy env executions (playExecutions env executions schedule snapshot) who = some finish →
      (executions who).finish env value = some finish := by
    intro who finish value hread hfinished
    obtain ⟨loaded, hloaded, rfl⟩ := Option.map_eq_some_iff.mp hread
    rw [finishedBy, hloaded, Option.bind_some] at hfinished
    exact hfinished
  have hfirst := Execution.write_eq hresolve (hfinish hreadEarly hearly)
  have hsecond := Execution.write_eq hresolve (hfinish hreadLate hlate)
  rw [hfirst, Option.getD_some] at hcommitted hsecond
  have hresult := hcommitted _ hsecond
  change (playExecutions env executions schedule snapshot).committed = _ at hresult
  rw [hresult]
  unfold OutputsSafe
  dsimp only
  generalize (executions !lastCommitter schedule) = first at hfirst hsecond ⊢
  generalize (executions (lastCommitter schedule)) = last at hsecond ⊢
  by_cases hread : sees .read schedule
  · -- the last committer works on what the other has committed
    simp only [hread, true_or, if_true, keepsOutput_writeSnapshot_self, and_true]
    split_ifs with hkeys
    · rw [keepsOutput_writeSnapshot, if_pos hkeys]
    · rw [keepsOutput_writeSnapshot_of_stored hkeys (keepsOutput_writeSnapshot_self early).stored,
        Execution.spares_iff]
  simp only [hread, false_or, if_false, Bool.false_eq_true]
  by_cases hrefresh : sees .refresh schedule
  · simp only [hrefresh, if_true, not_true_eq_false, false_and, if_false, keepsOutput_writeSnapshot_self,
      and_true, keepsOutput_writeSnapshot]
  simp only [hrefresh, if_false, Bool.false_eq_true, not_false_eq_true, true_and]
  by_cases hsame : writeSnapshot (last.additions env snapshot) snapshot late = snapshot
  · -- the last committer writes nothing, and its output was in the snapshot before
    have hlast : KeepsOutput (writeSnapshot (last.additions env snapshot) snapshot late) late :=
      keepsOutput_writeSnapshot_self late
    have hstored := hlast.stored
    rw [hsame] at hstored
    rw [hsame, flushColumn_unchanged, if_pos rfl, and_iff_right (keepsOutput_writeSnapshot_self early)]
    split_ifs with hkeys
    · rw [keepsOutput_writeSnapshot, if_pos hkeys.symm, eq_comm]
    · rw [keepsOutput_writeSnapshot_of_stored (Ne.symm hkeys) hstored, Execution.spares_iff]
  · rw [flushColumn_of_ne hsame, if_neg hsame, and_iff_left (keepsOutput_writeSnapshot_self late),
      keepsOutput_writeSnapshot]

/-! ### A lost output -/

/-- Two summaries of a trigger, merged. -/
def summariesGraph : WorkflowGraph where
  schemaVersion := 2
  nodes :=
    [{ id := "t", type := "manual_trigger" }, { id := "a", type := "summarize" },
      { id := "b", type := "summarize" },
      { id := "m", type := "merge", config := [("mode", .str "all")] }]
  edges :=
    [{ source := "t", target := "a" }, { source := "t", target := "b" },
      { source := "a", target := "m" }, { source := "b", target := "m" }]

/-- The graph with the router; the legacy branches are not reached. -/
def summariesEnv : EngineEnv :=
  { catalogueEnv summariesGraph repairedGlobals with
    resolveNodeInputs := resolveNodeInputs fun _ ↦ .ok [] }

/-- The run in which the trigger has succeeded and both summaries are claimed. -/
def summariesRun : EngineState :=
  summariesEnv.play
    [(1, execSucceeds "t" "" 0 [("payload", .obj []), ("trigger_type", .str "manual_trigger")])]
    (startRun summariesEnv 0 .inline [] [])

def summaryExecution (nodeId : String) (token : ℕ) (text : String) : Execution where
  now := 2
  args :=
    { row := ⟨nodeId, ""⟩
      outcome := .ok
        { status := .succeeded, output := [("text", .str text), ("provider", .str "llm")] } }
  token := token
  loaded := summariesRun

/-- Both summaries read the snapshot before either commits. -/
def bothReadFirst : List (Bool × ColumnEvent) :=
  [(true, .read), (false, .read), (true, .refresh), (true, .commit), (false, .refresh),
    (false, .commit)]

def summaryExecutions (who : Bool) : Execution :=
  if who then summaryExecution "a" 2 "first" else summaryExecution "b" 3 "second"

def playSummaries (schedule : List (Bool × ColumnEvent)) : Column JsonObject :=
  playExecutions summariesEnv summaryExecutions schedule summariesRun.run.contextSnapshot

/-- Both summaries succeed, and the merge collects the second alone: the first is not in the snapshot
that is committed in the end. -/
theorem summary_lost :
    graphValid catalogue (fun _ ↦ []) summariesGraph {} ∧
      Reachable summariesEnv anyOp summariesRun ∧
      bothReadFirst ∈ interleavings readModifyWrite readModifyWrite ∧
      ∃ first second,
        finishedBy summariesEnv summaryExecutions (playSummaries bothReadFirst) true = some first ∧
        finishedBy summariesEnv summaryExecutions (playSummaries bothReadFirst) false = some second ∧
        first.id = ⟨"a", ""⟩ ∧ second.id = ⟨"b", ""⟩ ∧
        first.status = .succeeded ∧ second.status = .succeeded ∧
        ¬ KeepsOutput (playSummaries bothReadFirst).committed first ∧
        collectUpstreamOutputs ["a", "b"] (nodeOutputsOf (playSummaries bothReadFirst).committed)
          summariesRun.nodes = [second.output] := by
  have hfirst : (finishedBy summariesEnv summaryExecutions (playSummaries bothReadFirst) true).map
      (fun finish ↦ (finish.id, finish.status)) = some (⟨"a", ""⟩, .succeeded) := by decide +kernel
  have hsecond : (finishedBy summariesEnv summaryExecutions (playSummaries bothReadFirst) false).map
      (fun finish ↦ (finish.id, finish.status, [finish.output])) =
      some (⟨"b", ""⟩, .succeeded, collectUpstreamOutputs ["a", "b"]
        (nodeOutputsOf (playSummaries bothReadFirst).committed) summariesRun.nodes) := by decide +kernel
  have hlost : JsonObject.get (nodeOutputsOf (playSummaries bothReadFirst).committed) "a" = none := by
    decide +kernel
  obtain ⟨first, hfirst, hfirstParts⟩ := Option.map_eq_some_iff.mp hfirst
  obtain ⟨second, hsecond, hsecondParts⟩ := Option.map_eq_some_iff.mp hsecond
  simp only [Prod.mk.injEq] at hfirstParts hsecondParts
  obtain ⟨hfirstId, hfirstStatus⟩ := hfirstParts
  obtain ⟨hsecondId, hsecondStatus, hcollected⟩ := hsecondParts
  refine ⟨by decide +kernel, reachable_play 0 .inline [] [] (permits_anyOp _ _ _),
    (mem_interleavings _ _ _).mpr (by decide), first, second, hfirst, hsecond, hfirstId, hsecondId,
    hfirstStatus, hsecondStatus, fun hkept ↦ ?_, hcollected.symm⟩
  have hstored := hkept.stored
  unfold Finish.storageKey at hstored
  rw [hfirstId] at hstored
  exact absurd (hstored.symm.trans hlost) (by simp)

/-- The first summary commits before the second reads. -/
def oneAfterTheOther : List (Bool × ColumnEvent) :=
  [(true, .read), (true, .refresh), (true, .commit), (false, .read), (false, .refresh),
    (false, .commit)]

/-- One after the other, the summaries are both kept: their outputs hold no list. -/
theorem summaries_kept :
    ∃ first second,
      finishedBy summariesEnv summaryExecutions (playSummaries oneAfterTheOther) true = some first ∧
      finishedBy summariesEnv summaryExecutions (playSummaries oneAfterTheOther) false = some second ∧
      KeepsOutput (playSummaries oneAfterTheOther).committed first ∧
      KeepsOutput (playSummaries oneAfterTheOther).committed second := by
  have hfirst : (finishedBy summariesEnv summaryExecutions (playSummaries oneAfterTheOther) true).map
      (fun finish ↦ (finish.storageKey, finish.output)) =
      some ("a", [("text", .str "first"), ("provider", .str "llm")]) := by decide +kernel
  have hsecond : (finishedBy summariesEnv summaryExecutions (playSummaries oneAfterTheOther) false).map
      Finish.storageKey = some "b" := by decide +kernel
  obtain ⟨first, hfirst, hfirstParts⟩ := Option.map_eq_some_iff.mp hfirst
  obtain ⟨second, hsecond, hsecondKey⟩ := Option.map_eq_some_iff.mp hsecond
  simp only [Prod.mk.injEq] at hfirstParts
  refine ⟨first, second, hfirst, hsecond, ?_⟩
  refine (outputsKept_iff summariesEnv _ rfl _ _ oneAfterTheOther
    ((mem_interleavings _ _ _).mpr (by decide)) first second hfirst hsecond).mpr ?_
  unfold OutputsSafe
  rw [if_neg (by rw [hfirstParts.1, hsecondKey]; decide), if_pos (by decide)]
  intro args _ key items hmem
  rw [hfirstParts.2] at hmem
  simp at hmem

end ContentGenerator.Workflows
