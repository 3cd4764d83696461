import ContentGenerator.Lib.Blocking
import ContentGenerator.Workflows.Pauses
import ContentGenerator.Workflows.Inputs

/-!
# Stuck runs

A run in which nothing is ready, queued, running, waiting or failed goes on only if `advance` promotes a
pending row. `not_stuck_iff` says when it does: when some pending row is not blocked in the sense of
`Lib.WaitsFor`, where a pending node waits for its pending predecessors, an `any` merge needs one of them
and every other node needs all, and a node is dead when a predecessor row has settled against it
(`pendingNodes`).

A run that is over has a failed row or is complete (`Reachable.runOver`), so that `advance` does not
return early on such a state.
-/

namespace ContentGenerator.Workflows

open Lib Relation List Option
open KeyedTable (find_eq_some_iff find_modify)
open NodeTable (get_eq_some get_of_find mem_iterations mem_rowsOf)

variable {advances : Bool} {decision : JsonObject} {edge : GraphEdge} {id : RowId} {t : NodeTable}

variable {nodeId : String} {st : EngineState} {token : ℕ}

variable {env : EngineEnv} {now : Time}

/-! ### Runs that are over -/

/-- A run that has failed has a failed row, and one that has succeeded has only successes. -/
structure RunOver (st : EngineState) : Prop where
  failed : st.run.status = .failed → ∃ id row, st.nodes.find id = some row ∧ row.status = .failed
  succeeded : st.run.status = .succeeded →
    ∀ id row, st.nodes.find id = some row → row.status.isSuccess

section RunOver

variable {st st' : EngineState}

theorem RunOver.of_running (h : st.run.status = .running) : RunOver st :=
  ⟨fun hstatus ↦ absurd (h.symm.trans hstatus) (by decide),
    fun hstatus ↦ absurd (h.symm.trans hstatus) (by decide)⟩

/-- Finalizing derives the status of the run from its rows. -/
theorem finalize_runOver (st : EngineState) : RunOver (st.finalize env now) := by
  have hmem : ∀ id row, st.nodes.find id = some row ↔ (id, row) ∈ st.nodes.entries :=
    fun id row ↦ find_eq_some_iff _ _ _
  unfold EngineState.finalize finalizeRunStatus
  dsimp only
  split_ifs with hcancelled hfailed hwaiting hcomplete hany
  · constructor <;> intro hstatus <;> exact absurd (hcancelled.symm.trans hstatus) (by decide)
  · refine ⟨fun _ ↦ ?_, fun hstatus ↦ absurd hstatus RunStatus.noConfusion⟩
    obtain ⟨entry, hentry, hstatus⟩ := List.any_eq_true.mp hfailed
    exact ⟨entry.1, entry.2, (hmem _ _).mpr hentry, by simpa using hstatus⟩
  · exact ⟨fun hstatus ↦ absurd hstatus RunStatus.noConfusion,
      fun hstatus ↦ absurd hstatus RunStatus.noConfusion⟩
  · exact ⟨fun hstatus ↦ absurd hstatus RunStatus.noConfusion,
      fun hstatus ↦ absurd hstatus RunStatus.noConfusion⟩
  · refine ⟨fun hstatus ↦ absurd hstatus RunStatus.noConfusion, fun _ id row hrow ↦ ?_⟩
    -- every row is terminal, and none has failed or been cancelled
    have hentry := (hmem _ _).mp hrow
    simp only [runAllComplete, decide_eq_true_eq, List.all_eq_true] at hcomplete
    simp only [runHasFailure, List.any_eq_true, decide_eq_true_eq, not_exists, not_and] at hfailed
    simp only [List.any_eq_true, decide_eq_true_eq, not_exists, not_and] at hany
    have hterminal := hcomplete.2 _ hentry
    have hneFailed := hfailed _ hentry
    have hneCancelled := hany _ hentry
    dsimp only at hterminal hneFailed hneCancelled
    revert hterminal hneFailed hneCancelled
    cases row.status <;> decide
  · exact ⟨fun hstatus ↦ absurd hstatus RunStatus.noConfusion,
      fun hstatus ↦ absurd hstatus RunStatus.noConfusion⟩

theorem RunOver.advance (h : RunOver st) : RunOver (advance env now st) := by
  unfold Workflows.advance
  split_ifs
  · exact h
  · exact finalize_runOver _
  · exact finalize_runOver _

/-- A change that leaves the run and the rows at rest alone, and creates no row. -/
theorem RunOver.of_nodes (h : RunOver st) (hrun : st'.run = st.run)
    (hkept : ∀ id row, st.nodes.find id = some row → row.status.isAtRest →
      st'.nodes.find id = some row)
    (hold : ∀ id, (st'.nodes.find id).isSome → (st.nodes.find id).isSome) : RunOver st' where
  failed := by
    intro hstatus
    obtain ⟨id, row, hrow, hfailed⟩ := h.failed (hrun ▸ hstatus)
    exact ⟨id, row, hkept id row hrow (by rw [hfailed]; decide), hfailed⟩
  succeeded := by
    intro hstatus id row' hrow'
    have hsuccess := h.succeeded (hrun ▸ hstatus)
    obtain ⟨row, hrow⟩ := isSome_iff_exists.mp (hold id (by rw [hrow']; rfl))
    have hrest : row.status.isAtRest := by
      have hrowSuccess := hsuccess id row hrow
      revert hrowSuccess
      cases row.status <;> decide
    rw [mem_unique hrow' (hkept id row hrow hrest)]
    exact hsuccess id row hrow

theorem RunOver.followUp (h : RunOver st) (draw : ℚ) (id : RowId) :
    RunOver (followUp env now draw id st) := by
  have hsent : ∀ earliest, RunOver (st.sendAdvance earliest) := fun _ ↦ ⟨h.failed, h.succeeded⟩
  unfold Workflows.followUp
  split
  · split_ifs
    · exact hsent _
    · exact h.advance
    · exact h
  · split_ifs
    · exact h.advance
    · exact h

theorem RunOver.resumeRow {outcome : String}
    {row : NodeRun} (h : resumeRow env now token outcome decision advances id row st = .ok st') :
    RunOver st' := by
  unfold Workflows.resumeRow at h
  dsimp only at h
  split at h
  · simp at h
  · rw [Except.ok.injEq] at h
    rw [← h]
    unfold completeResume
    dsimp only
    split_ifs
    · exact (finalize_runOver _).advance
    · exact finalize_runOver _

theorem RunOver.resume {rawOutcome : String}
    (h : RunOver st) (hcall : resumeWaitingNode env now token rawOutcome decision advances st = .ok st') :
    RunOver st' := by
  obtain ⟨-, entry, -, ⟨-, rfl | ⟨-, rfl⟩⟩ | ⟨-, hresumed⟩⟩ := resumeWaitingNode_eq_ok hcall
  · exact h
  · exact h.advance
  · exact RunOver.resumeRow hresumed

theorem RunOver.execute {args : ExecuteArgs} {worker : Option String} {draw : ℚ}
    (h : RunOver st) (hcall : executeClaimedNodeRun env now args token worker draw st = .ok st') :
    RunOver st' := by
  have heffect := executeClaimedNodeRun_effect hcall
  generalize Op.handOff env now (.execute args token worker draw) st = off at heffect
  cases heffect with
  | aborted =>
    refine h.of_nodes rfl (fun id row hrow hrest ↦ ?_) fun id hsome ↦ ?_
    · have hidle : ¬ (row.status = .queued ∨ row.status = .running ∨ row.status = .ready) := by
        revert hrest
        cases row.status <;> decide
      rw [find_modify, hrow, map_some]
      split_ifs <;> rfl
    · rw [find_modify] at hsome
      split_ifs at hsome with hid
      · simpa using hsome
      · exact hsome
  | rejected => exact h
  | missing => exact finalize_runOver _
  | ran => exact (finalize_runOver _).followUp draw args.row

theorem RunOver.recover (h : RunOver st) (limit : ℕ) (draw : RowId → ℚ) :
    RunOver (recoverStale env now limit draw st) := by
  have hkeeps : KeepsPauses (fun _ ↦ False) st (recoverStale env now limit draw st) :=
    recoverStale_keepsPauses limit draw st
  refine h.of_nodes ?_ (fun id row hrow hrest ↦ hkeeps.nodes.find_of_kept hrow hrest not_false)
    fun id hsome ↦ ?_
  · unfold recoverStale
    dsimp only
    split_ifs <;> rfl
  · unfold recoverStale at hsome
    dsimp only at hsome
    split_ifs at hsome
    · exact hsome
    · revert hsome
      refine foldl_invariant (P := fun t : NodeTable ↦ (t.find id).isSome → (st.nodes.find id).isSome)
        (fun t other _ hacc hmodified ↦ hacc ?_) fun hsome ↦ hsome
      rw [find_modify] at hmodified
      split_ifs at hmodified
      · simpa using hmodified
      · exact hmodified

theorem RunOver.apply {op : Op} (h : RunOver st) (happly : op.apply env now st = .ok st') :
    RunOver st' := by
  cases op with
  | advance =>
    rw [← Except.ok.inj happly]
    exact h.advance
  | execute args token worker draw => exact h.execute happly
  | resume token outcome decision advances =>
    rw [Op.apply] at happly
    exact h.resume happly
  | resolveEvent eventKey payload =>
    obtain ⟨⟨_, waits⟩, -, rfl⟩ := resolveEvent_eq_ok happly
    exact ⟨h.failed, h.succeeded⟩
  | resumeRun eventKey decision advances =>
    rw [Op.apply] at happly
    obtain ⟨token, waits, -, hcall⟩ := resumeRun_eq_ok happly
    have hresolved : RunOver { st with waits := waits } := ⟨h.failed, h.succeeded⟩
    exact hresolved.resume hcall
  | recover limit draw =>
    rw [← Except.ok.inj happly]
    exact h.recover limit draw
  | wake limit =>
    rw [← Except.ok.inj happly]
    exact ⟨h.failed, h.succeeded⟩
  | cancel =>
    rw [Op.apply] at happly
    rcases cancelRun_eq_ok happly with rfl | ⟨-, hcancelled, -⟩
    · exact h
    · constructor <;> intro hstatus <;> exact absurd (hcancelled.symm.trans hstatus) (by decide)
  | retryNode nodeId =>
    rw [Op.apply] at happly
    obtain ⟨-, id, row, -, -, rfl⟩ := retryNode_eq_ok happly
    exact (RunOver.of_running rfl).advance
  | retryFromNode nodeId =>
    rw [Op.apply] at happly
    obtain ⟨-, id, row, -, -, rfl⟩ := retryFromNode_eq_ok happly
    exact (RunOver.of_running rfl).advance

theorem RunOver.run (h : RunOver st) (op : Op) : RunOver (op.run env now st) := by
  unfold Op.run
  split
  · rename_i st' happly
    exact h.apply happly
  · exact h

end RunOver

/-- The status of a reachable run agrees with its rows once it is over. -/
theorem Reachable.runOver {allowed : Time → Op → EngineState → Prop}
    (hst : Reachable env allowed st) : RunOver st := by
  obtain ⟨now, mode, triggerPayload, snapshot, hrun⟩ := hst
  refine ReflTransGen.invariant (P := RunOver) ?_ hrun ?_
  · intro st st' h hstep
    cases hstep with
    | call now op _ _ => exact h.run op
    | deliver now op _ i _ _ _ =>
      have hconsumed : RunOver { st with outbox := st.outbox.eraseIdx i } := ⟨h.failed, h.succeeded⟩
      exact hconsumed.run op
  · cases mode with
    | inline =>
      exact (RunOver.of_running rfl).advance
    | enqueued =>
      exact RunOver.of_running rfl
    | idle =>
      exact RunOver.of_running rfl

/-- After any operations the status of a run that is over agrees with its rows. -/
theorem run_agrees (env : EngineEnv) (now : Time) (mode : StartMode) (payload snapshot : JsonObject)
    (calls : List (Time × Op)) : RunOver (env.play calls (startRun env now mode payload snapshot)) :=
  (reachable_play now mode payload snapshot (permits_anyOp env calls _)).runOver

/-! ### What `advance` promotes -/

section Promotion

variable {g : WorkflowGraph} {t : NodeTable}

def OpenNode (t : NodeTable) (nodeId : String) : Prop :=
  ∃ row, t.find ⟨nodeId, ""⟩ = some row ∧ row.status = .pending

theorem promoteReady_ready (hopen : OpenNode t nodeId)
    (hmem : nodeId ∈ readyNodeIds g t) :
    ((promoteReady g t).find ⟨nodeId, ""⟩).map NodeRun.status = some .ready := by
  have hfold : ∀ (ids : List String) (nodes : NodeTable),
      (OpenNode nodes nodeId ∧ nodeId ∈ ids) ∨
        (nodes.find ⟨nodeId, ""⟩).map NodeRun.status = some .ready →
      ((ids.foldl promotePending nodes).find ⟨nodeId, ""⟩).map NodeRun.status = some .ready := by
    intro ids
    induction ids with
    | nil =>
      rintro nodes (⟨-, hnil⟩ | hready)
      · simp at hnil
      · exact hready
    | cons first rest ih =>
      intro nodes h
      refine ih (promotePending nodes first) ?_
      by_cases hfirst : first = nodeId
      · subst hfirst
        refine .inr ?_
        rcases h with ⟨⟨row, hrow, hpending⟩, -⟩ | hready
        · rw [promotePending, get_of_find hrow]
          simp only [hpending, if_true]
          rw [NodeTable.find_setStatus, if_pos rfl, hrow]
          rfl
        · obtain ⟨row, hrow, hstatus⟩ := map_eq_some_iff.mp hready
          have hkept : ¬ row.status = .pending := by
            rw [hstatus]
            decide
          rw [promotePending, get_of_find hrow]
          simp only [if_neg hkept]
          exact hready
      · -- the row of another node is written
        have hother : (promotePending nodes first).find ⟨nodeId, ""⟩ = nodes.find ⟨nodeId, ""⟩ := by
          unfold promotePending
          split
          · rfl
          · rename_i current hget
            split_ifs
            · refine KeyedTable.find_modify_of_ne _ _ fun hid ↦ hfirst ?_
              rw [← (get_eq_some hget).2, ← hid]
            · rfl
        rw [OpenNode, hother]
        rcases h with ⟨hopen, hmem⟩ | hready
        · exact .inl ⟨hopen, (mem_cons.mp hmem).resolve_left fun h ↦ hfirst h.symm⟩
        · exact .inr hready
  exact hfold _ t (.inl ⟨hopen, hmem⟩)

theorem claims_promoted (env : EngineEnv) (now : Time) (ids : List RowId) (st : EngineState)
    (h : ∃ row, st.nodes.find id = some row ∧ (row.status = .ready ∨ row.status = .queued)) :
    ∃ row, (ids.foldl (claimAndEnqueue env now) st).nodes.find id = some row ∧
      (row.status = .ready ∨ row.status = .queued) := by
  refine foldl_invariant (P := fun acc : EngineState ↦ ∃ row, acc.nodes.find id = some row ∧
    (row.status = .ready ∨ row.status = .queued)) ?_ h
  rintro acc other - ⟨row, hrow, hstatus⟩
  unfold claimAndEnqueue
  split
  · exact ⟨row, hrow, hstatus⟩
  · rename_i claimed hclaimed
    by_cases hid : id = other
    · subst hid
      obtain ⟨old, hold, hclaim⟩ := bind_eq_some_iff.mp hclaimed
      refine ⟨claimed, NodeTable.find_put_self _ _ hold, .inr ?_⟩
      unfold claimReadyNode at hclaim
      rw [ite_none_right_eq_some] at hclaim
      rw [← Option.some.inj hclaim.2]
    · exact ⟨row, by rw [NodeTable.find_put_of_ne _ _ hid]; exact hrow, hstatus⟩

/-- Nothing is ready, queued, running, waiting or failed. -/
def Idle (t : NodeTable) : Prop :=
  ∀ id row, t.find id = some row →
    row.status = .pending ∨ row.status = .succeeded ∨ row.status = .skipped ∨
      row.status = .cancelled

/-- `advance` promotes a pending row. -/
def AdvancePromotes (env : EngineEnv) (now : Time) (st : EngineState) : Prop :=
  ∃ id row row', st.nodes.find id = some row ∧ row.status = .pending ∧
    (advance env now st).nodes.find id = some row' ∧ (row'.status = .ready ∨ row'.status = .queued)

theorem Idle.claimableRows (h : Idle t) : claimableRows t = [] := by
  unfold Workflows.claimableRows
  rw [map_eq_nil_iff, filter_eq_nil_iff]
  intro entry hentry
  rcases h entry.1 entry.2 ((find_eq_some_iff _ _ _).mpr hentry) with hs | hs | hs | hs <;>
    simp [hs]

/-- `advance` on an idle run. -/
theorem Idle.advance_eq (h : Idle st.nodes) (hopen : ¬ st.run.status.isTerminal) :
    advance env now st = ((Workflows.claimableRows (promoteReady env.graph st.nodes)).foldl
      (claimAndEnqueue env now) { st with nodes := promoteReady env.graph st.nodes }).finalize
        env now := by
  have hactive : ¬ (runIsWaiting st.nodes ∨ runHasFailure st.nodes) := by
    simp only [runIsWaiting, runHasFailure, List.any_eq_true, decide_eq_true_eq, not_or, not_exists,
      not_and]
    refine ⟨fun entry hentry ↦ ?_, fun entry hentry ↦ ?_⟩ <;>
      rcases h entry.1 entry.2 ((find_eq_some_iff _ _ _).mpr hentry) with
        hs | hs | hs | hs <;> simp [hs]
  unfold advance claimPass
  rw [if_neg hopen, if_neg hactive, h.claimableRows]
  rfl

theorem Idle.advancePromotes_iff (h : Idle st.nodes)
    (hopen : ¬ st.run.status.isTerminal) (hwf : WellFormed env.graph st.nodes) :
    AdvancePromotes env now st ↔
      ∃ nodeId, OpenNode st.nodes nodeId ∧ isReady env.graph st.nodes nodeId := by
  constructor
  · rintro ⟨id, row, row', hrow, hpending, hrow', hstatus'⟩
    rcases ReflTransGen.cases_head (promoteReady_steps (fun _ _ h ↦ h) st.nodes) with
      hsame | ⟨first, hfirst, -⟩
    · -- nothing was promoted, so nothing was claimed either
      rw [h.advance_eq hopen, ← hsame, h.claimableRows] at hrow'
      rw [mem_unique hrow hrow'] at hpending
      rcases hstatus' with hs | hs <;> exact absurd (hs.symm.trans hpending) (by decide)
    · obtain ⟨nodeId, other, current, hget, hcurrent, hready⟩ := hfirst
      have hid := hwf.get_id hget
      refine ⟨nodeId, ⟨current, ?_, hcurrent⟩, hready⟩
      rw [← hid]
      exact (get_eq_some hget).1
  · rintro ⟨nodeId, hnode, hready⟩
    obtain ⟨row, hrow, hpending⟩ := hnode
    have hmem : nodeId ∈ readyNodeIds env.graph st.nodes := by
      obtain ⟨node, hdeclared, -⟩ := hwf.nodeType _ row hrow
      unfold readyNodeIds
      rw [mem_filter]
      refine ⟨?_, by simp [get_of_find hrow, hready]⟩
      have hname : node.id = nodeId := WorkflowGraph.id_of_node? hdeclared
      rw [← hname]
      exact List.mem_map_of_mem (mem_of_find?_eq_some hdeclared)
    obtain ⟨promoted, hpromoted, hstatus⟩ := map_eq_some_iff.mp
      (promoteReady_ready ⟨row, hrow, hpending⟩ hmem)
    obtain ⟨row', hrow', hstatus'⟩ := claims_promoted env now
      (Workflows.claimableRows (promoteReady env.graph st.nodes))
      { st with nodes := promoteReady env.graph st.nodes } ⟨promoted, hpromoted, .inl hstatus⟩
    refine ⟨⟨nodeId, ""⟩, row, row', hrow, hpending, ?_, hstatus'⟩
    rw [h.advance_eq hopen]
    exact hrow'

end Promotion

/-! ### What holds a pending node back -/

section Waiting

variable {g : WorkflowGraph} {t : NodeTable}

/-- A row that has settled against an edge: it is cancelled, it is skipped where the edge needs a success,
or it is an iteration that is pending again, which nothing promotes. -/
def rejectsEdge (edge : GraphEdge) (entry : RowId × NodeRun) : Prop :=
  entry.2.status = .cancelled ∨
    (entry.2.status = .skipped ∧ edge.condition = some "approved") ∨
    (entry.2.status = .pending ∧ entry.1.iterationKey ≠ "")

/-- The placeholder of the node is pending and counts for its successors. -/
def pendingSource (t : NodeTable) (nodeId : String) : Prop :=
  ∃ entry ∈ t.iterations nodeId, entry.1.iterationKey = "" ∧ entry.2.status = .pending

def someSucceeded (g : WorkflowGraph) (t : NodeTable) (nodeId : String) : Prop :=
  ∃ edge ∈ g.predecessors nodeId, ∃ entry ∈ t.iterations edge.source, entry.2.status = .succeeded

/-- What the pending nodes of an idle run wait for. An `any` merge waits as long as no predecessor has
succeeded, and is dead when none is pending; every other node is dead when a predecessor row has settled
against its edge. -/
def pendingNodes (g : WorkflowGraph) (t : NodeTable) : WaitsFor String where
  dead nodeId :=
    if mergeMode g nodeId = some "any" then
      g.predecessors nodeId ≠ [] ∧ ¬ someSucceeded g t nodeId ∧
        ∀ edge ∈ g.predecessors nodeId, ¬ pendingSource t edge.source
    else ∃ edge ∈ g.predecessors nodeId, ∃ entry ∈ t.iterations edge.source, rejectsEdge edge entry
  needsAll nodeId := mergeMode g nodeId ≠ some "any"
  waits nodeId source :=
    (∃ edge ∈ g.predecessors nodeId, edge.source = source) ∧ pendingSource t source ∧
      (mergeMode g nodeId = some "any" → ¬ someSucceeded g t nodeId)

theorem pendingNodes_wellFounded (hacyclic : ∃ rank : String → ℕ, ∀ edge ∈ g.edges,
      rank edge.source < rank edge.target) :
    WellFounded fun source nodeId ↦ (pendingNodes g t).waits nodeId source := by
  obtain ⟨rank, hrank⟩ := hacyclic
  refine Subrelation.wf ?_ (measure rank).wf
  rintro source nodeId ⟨⟨edge, hedge, rfl⟩, -⟩
  obtain ⟨hmem, rfl⟩ := WorkflowGraph.mem_predecessors.mp hedge
  exact hrank edge hmem

theorem openNode_of_pendingSource (h : pendingSource t nodeId) : OpenNode t nodeId := by
  obtain ⟨⟨⟨rowNode, key⟩, row⟩, hentry, hkey, hpending⟩ := h
  obtain ⟨hfind, hnode⟩ := mem_rowsOf.mp (mem_iterations.mp hentry).1
  obtain rfl : rowNode = nodeId := hnode
  obtain rfl : key = "" := hkey
  exact ⟨row, hfind, hpending⟩

/-- Every source of an edge has a row that counts. -/
theorem iterations_ne_nil (hwf : WellFormed g t)
    (hsource : (g.node? edge.source).isSome) : t.iterations edge.source ≠ [] := by
  obtain ⟨row, hrow⟩ := isSome_iff_exists.mp (hwf.placeholder _ hsource)
  intro hempty
  have hmem : ((⟨edge.source, ""⟩, row) : RowId × NodeRun) ∈ t.rowsOf edge.source :=
    mem_rowsOf.mpr ⟨hrow, rfl⟩
  by_cases hkeyed : ∃ other ∈ t.rowsOf edge.source, other.1.iterationKey ≠ ""
  · obtain ⟨other, hother, hkey⟩ := hkeyed
    have hcounts : other ∈ t.iterations edge.source :=
      mem_iterations.mpr ⟨hother, fun h ↦ absurd h hkey⟩
    rw [hempty] at hcounts
    simp at hcounts
  · push Not at hkeyed
    have hcounts := mem_iterations.mpr ⟨hmem, fun _ ↦ hkeyed⟩
    rw [hempty] at hcounts
    simp at hcounts

/-- On an idle run a row satisfies an edge unless it rejects it or is still to come. -/
theorem branchSatisfied_iff {entry : RowId × NodeRun}
    (hidle : entry.2.status = .pending ∨ entry.2.status = .succeeded ∨ entry.2.status = .skipped ∨
      entry.2.status = .cancelled) :
    branchSatisfied edge entry.2.status ↔ ¬ rejectsEdge edge entry ∧
      ¬ (entry.1.iterationKey = "" ∧ entry.2.status = .pending) := by
  unfold rejectsEdge branchSatisfied
  rcases hidle with hs | hs | hs | hs <;> by_cases hedge : edge.condition = some "approved" <;>
    by_cases hkey : entry.1.iterationKey = "" <;> simp [hs, hedge, hkey, NodeStatus.isSuccess]

theorem mergeAnyReady_iff :
    mergeAnyReady t (g.predecessors nodeId) ↔ someSucceeded g t nodeId := by
  simp [mergeAnyReady, someSucceeded, List.any_eq_true]

theorem Idle.isReady_iff_free (h : Idle t) (hwf : WellFormed g t)
    (hsources : ∀ edge ∈ g.edges, (g.node? edge.source).isSome)
    (hopen : OpenNode t nodeId) : isReady g t nodeId ↔ (pendingNodes g t).Free nodeId := by
  obtain ⟨row, hrow, hpending⟩ := hopen
  have hget := get_of_find hrow
  have hskippable : row.status.isSkippable := by
    rw [hpending]
    decide
  have hidle : ∀ source, ∀ entry ∈ t.iterations source, entry.2.status = .pending ∨
      entry.2.status = .succeeded ∨ entry.2.status = .skipped ∨ entry.2.status = .cancelled :=
    fun source entry hentry ↦ h entry.1 entry.2
      (mem_rowsOf.mp (mem_iterations.mp hentry).1).1
  by_cases hany : mergeMode g nodeId = some "any"
  · have hready : isReady g t nodeId ↔ g.predecessors nodeId = [] ∨ someSucceeded g t nodeId := by
      unfold isReady
      rw [hget]
      simp only [hskippable, not_true_eq_false, if_false, hany, if_true, List.isEmpty_iff]
      split_ifs with hempty
      · simp [hempty]
      · rw [mergeAnyReady_iff]
        simp [hempty]
    rw [hready]
    unfold WaitsFor.Free pendingNodes
    dsimp only
    rw [if_pos hany]
    constructor
    · rintro (hempty | hsome)
      · refine ⟨fun hdead ↦ hdead.1 hempty, ?_⟩
        rintro source ⟨⟨edge, hedge, -⟩, -⟩
        rw [hempty] at hedge
        simp at hedge
      · exact ⟨fun hdead ↦ hdead.2.1 hsome, fun source hwaits ↦ hwaits.2.2 hany hsome⟩
    · rintro ⟨hdead, hwaits⟩
      by_contra hneither
      obtain ⟨hnonempty, hnone⟩ := not_or.mp hneither
      refine hdead ⟨hnonempty, hnone, fun edge hedge hpendingSource ↦ ?_⟩
      exact hwaits edge.source ⟨⟨edge, hedge, rfl⟩, hpendingSource, fun _ ↦ hnone⟩
  · unfold WaitsFor.Free pendingNodes
    dsimp only
    rw [if_neg hany]
    constructor
    · intro hready
      have hsatisfied : ∀ edge ∈ g.predecessors nodeId, ∀ entry ∈ t.iterations edge.source,
          ¬ rejectsEdge edge entry ∧ ¬ (entry.1.iterationKey = "" ∧ entry.2.status = .pending) :=
        fun edge hedge entry hentry ↦ (branchSatisfied_iff (hidle _ entry hentry)).mp
          ((edges_satisfied_of_isReady hany hready hedge).2 entry hentry)
      constructor
      · rintro ⟨edge, hedge, entry, hentry, hrejects⟩
        exact (hsatisfied edge hedge entry hentry).1 hrejects
      · rintro source ⟨⟨edge, hedge, rfl⟩, ⟨entry, hentry, hcounts⟩, -⟩
        exact (hsatisfied edge hedge entry hentry).2 hcounts
    · rintro ⟨hdead, hwaits⟩
      refine isReady_of_edges_satisfied hany hget hskippable fun edge hedge ↦
        ⟨iterations_ne_nil hwf (hsources edge (WorkflowGraph.mem_predecessors.mp hedge).1), ?_⟩
      refine fun entry hentry ↦ (branchSatisfied_iff (hidle _ entry hentry)).mpr
        ⟨fun hrejects ↦ hdead ⟨edge, hedge, entry, hentry, hrejects⟩, fun hcounts ↦ ?_⟩
      exact hwaits edge.source ⟨⟨edge, hedge, rfl⟩, ⟨entry, hentry, hcounts⟩,
        fun h ↦ absurd h hany⟩

end Waiting

/-! ### The property and its condition -/

open Compiler in
theorem nodes_ne_nil_of_graphValid {registry : WorkflowNodeRegistry}
    {availableTags : CompileContext → List String} {g : WorkflowGraph} {context : CompileContext}
    (h : graphValid registry availableTags g context) : g.nodes ≠ [] := by
  intro hempty
  have hclean : validateGraph registry availableTags g context = [] := by
    simpa [graphValid] using h
  simp only [validateGraph, append_eq_nil_iff, hempty] at hclean
  obtain ⟨⟨⟨⟨⟨⟨⟨⟨⟨⟨⟨⟨-, -⟩, -⟩, -⟩, htriggers⟩, -⟩, -⟩, -⟩, -⟩, -⟩, -⟩, -⟩, -⟩ := hclean
  simp [collectTriggerErrors, resolveNodes] at htriggers

/-- The run is complete and is finalized as `SUCCEEDED`, or `advance` promotes a row. -/
def NotStuck (env : EngineEnv) (now : Time) (st : EngineState) : Prop :=
  ((∀ id row, st.nodes.find id = some row → row.status.isSuccess) ∧
      (finalizeRunStatus env.render now st.run st.nodes).status = .succeeded) ∨
    AdvancePromotes env now st

/-- No row is pending or cancelled, or some pending node is not blocked. -/
def CanGoOn (g : WorkflowGraph) (t : NodeTable) : Prop :=
  (∀ id row, t.find id = some row → row.status ≠ .pending ∧ row.status ≠ .cancelled) ∨
    ∃ nodeId, OpenNode t nodeId ∧ ¬ (pendingNodes g t).Blocked nodeId

/-- A complete run is finalized as `SUCCEEDED`. -/
theorem finalize_succeeded {run : Run} (hrun : run.status ≠ .cancelled)
    (hentries : t.entries ≠ []) (hsuccess : ∀ id row, t.find id = some row → row.status.isSuccess) :
    (finalizeRunStatus env.render now run t).status = .succeeded := by
  have hentry : ∀ entry ∈ t.entries, entry.2.status.isSuccess := fun entry hmem ↦
    hsuccess entry.1 entry.2 ((find_eq_some_iff _ _ _).mpr hmem)
  have hnever : ∀ status : NodeStatus, ¬ status.isSuccess →
      ¬ (t.entries.any fun entry ↦ entry.2.status = status) = true := by
    intro status hstatus hany
    obtain ⟨entry, hmem, hsame⟩ := List.any_eq_true.mp hany
    have hentrySuccess := hentry entry hmem
    rw [of_decide_eq_true hsame] at hentrySuccess
    exact hstatus hentrySuccess
  have hcomplete : runAllComplete t := by
    simp only [runAllComplete, List.isEmpty_iff, hentries, not_false_eq_true, List.all_eq_true,
      true_and, decide_eq_true_eq]
    intro entry hmem
    simp [NodeStatus.isTerminal, hentry entry hmem]
  have hfailed : ¬ runHasFailure t := hnever .failed (by decide)
  have hwaiting : ¬ runIsWaiting t := hnever .waiting (by decide)
  unfold finalizeRunStatus
  rw [if_neg hrun, if_neg hfailed, if_neg hwaiting, if_pos hcomplete,
    if_neg (hnever .cancelled (by decide))]

variable {allowed : Time → Op → EngineState → Prop} {st : EngineState}

/-- In every reachable state in which nothing is ready, queued, running, waiting or failed: the run is
complete or `advance` promotes a pending row exactly when no row is pending or cancelled, or some
pending node is not blocked. Assumes: the graph is valid and the run is not cancelled. -/
theorem not_stuck_iff (hst : Reachable env allowed st) {availableTags : CompileContext → List String}
    {context : CompileContext} (hvalid : graphValid env.registry availableTags env.graph context)
    (hrun : st.run.status ≠ .cancelled)
    (hquiet : ∀ id row, st.nodes.find id = some row →
      row.status ∉ [.ready, .queued, .running, .waiting, .failed]) (now : Time) :
    NotStuck env now st ↔ CanGoOn env.graph st.nodes := by
  have hwf := hst.wellFormed
  have hgraph := validGraph_of_graphValid hvalid
  have hidle : Idle st.nodes := by
    intro id row hrow
    have hstatus := hquiet id row hrow
    revert hstatus
    cases row.status <;> decide
  have hentries : st.nodes.entries ≠ [] := by
    obtain ⟨node, hnode⟩ := exists_mem_of_ne_nil _ (nodes_ne_nil_of_graphValid hvalid)
    have hdeclared : (env.graph.node? node.id).isSome :=
      WorkflowGraph.node?_isSome_iff.mpr (List.mem_map_of_mem hnode)
    obtain ⟨row, hrow⟩ := isSome_iff_exists.mp (hwf.placeholder node.id hdeclared)
    exact ne_nil_of_mem ((find_eq_some_iff _ _ _).mp hrow)
  have hcomplete : ((∀ id row, st.nodes.find id = some row → row.status.isSuccess) ∧
      (finalizeRunStatus env.render now st.run st.nodes).status = .succeeded) ↔
      ∀ id row, st.nodes.find id = some row → row.status ≠ .pending ∧ row.status ≠ .cancelled := by
    constructor
    · rintro ⟨hsuccess, -⟩ id row hrow
      have hrowSuccess := hsuccess id row hrow
      revert hrowSuccess
      cases row.status <;> decide
    · intro hnone
      have hsuccess : ∀ id row, st.nodes.find id = some row → row.status.isSuccess := by
        intro id row hrow
        have hrowNone := hnone id row hrow
        have hrowIdle := hidle id row hrow
        revert hrowNone hrowIdle
        cases row.status <;> decide
      exact ⟨hsuccess, finalize_succeeded hrun hentries hsuccess⟩
  unfold NotStuck CanGoOn
  rw [hcomplete]
  by_cases hover : st.run.status.isTerminal
  · -- a run that is over has no failed row here, so it is complete
    have hnone : ∀ id row, st.nodes.find id = some row →
        row.status ≠ .pending ∧ row.status ≠ .cancelled := by
      have hstatus : st.run.status = .succeeded := by
        by_contra hsucceeded
        have hfailed : st.run.status = .failed := by
          revert hover hrun hsucceeded
          cases st.run.status <;> decide
        obtain ⟨id, row, hrow, hrowFailed⟩ := hst.runOver.failed hfailed
        exact hquiet id row hrow (by simp [hrowFailed])
      intro id row hrow
      have hsuccess := hst.runOver.succeeded hstatus id row hrow
      revert hsuccess
      cases row.status <;> decide
    exact iff_of_true (.inl hnone) (.inl hnone)
  · rw [hidle.advancePromotes_iff hover hwf, WaitsFor.exists_not_blocked_iff
      (pendingNodes_wellFounded hgraph.acyclic)
      (fun _ _ _ hwaits ↦ openNode_of_pendingSource hwaits.2.1)]
    refine or_congr Iff.rfl (exists_congr fun nodeId ↦ and_congr_right fun hopen ↦ ?_)
    exact hidle.isReady_iff_free hwf
      (fun edge hedge ↦ WorkflowGraph.node?_isSome_iff.mpr (hgraph.source_mem edge hedge)) hopen

/-! ### A review on one branch -/

/-- A review that a condition asks for on one of its branches. -/
def reviewGraph : WorkflowGraph where
  nodes :=
    [{ id := "t", type := "manual_trigger" }, { id := "c", type := "condition" },
      { id := "a", type := "approval" }, { id := "s", type := "summarize" }]
  edges :=
    [{ source := "t", target := "c" }, { source := "c", target := "a", condition := some "yes" },
      { source := "c", target := "s", condition := some "no" },
      { source := "a", target := "s", condition := some "approved" }]

/-- The run in which the condition has chosen a branch, and what comes after it. -/
def reviewRun (branch : String) (rest : List (Time × Op)) : EngineState :=
  (catalogueEnv reviewGraph repairedGlobals).play
    ([(1, execSucceeds "t" "" 0 [("payload", .obj []), ("trigger_type", .str "manual_trigger")]),
      (2, execSucceeds "c" "" 2
        [("branch", .str branch), ("matched", .bool false), ("field", .str "value")])] ++ rest)
    (startRun (catalogueEnv reviewGraph repairedGlobals) 0 .inline [] [])

def reviewedRun : EngineState :=
  reviewRun "yes" [(3, execSucceeds "a" "" 4 [("approved", .bool true), ("status", .str "approved")])]

theorem quiet_of_entries
    (h : ∀ entry ∈ t.entries, entry.2.status ∉ [.ready, .queued, .running, .waiting, .failed]) :
    ∀ id row, t.find id = some row → row.status ∉ [.ready, .queued, .running, .waiting, .failed] :=
  fun _ _ hrow ↦ h _ ((find_eq_some_iff _ _ _).mp hrow)

/-- The run on the branch with the review is complete. -/
theorem reviewedRun_not_stuck :
    NotStuck (catalogueEnv reviewGraph repairedGlobals) 4 reviewedRun := by
  have hst : Reachable (catalogueEnv reviewGraph repairedGlobals) anyOp reviewedRun :=
    reachable_play 0 .inline [] [] (permits_anyOp _ _ _)
  have hvalid : graphValid (catalogueEnv reviewGraph repairedGlobals).registry (fun _ ↦ [])
    reviewGraph {} := by decide +kernel
  have hcomplete : ∀ entry ∈ reviewedRun.nodes.entries,
      entry.2.status ≠ .pending ∧ entry.2.status ≠ .cancelled := by decide +kernel
  exact (not_stuck_iff hst hvalid (by decide +kernel) (quiet_of_entries (by decide +kernel)) 4).mpr
    (.inl fun id row hrow ↦ hcomplete _ ((find_eq_some_iff _ _ _).mp hrow))

/-- On the branch without the review, the step after both stays pending for ever: the review is skipped,
and the edge behind it needs an approval. -/
theorem skipped_review_stuck :
    graphValid catalogue (fun _ ↦ []) reviewGraph {} ∧
      Reachable (catalogueEnv reviewGraph repairedGlobals) anyOp (reviewRun "no" []) ∧
      (reviewRun "no" []).run.status = .running ∧
      (∀ id row, (reviewRun "no" []).nodes.find id = some row →
        row.status ∉ [.ready, .queued, .running, .waiting, .failed]) ∧
      ¬ NotStuck (catalogueEnv reviewGraph repairedGlobals) 3 (reviewRun "no" []) := by
  have hpending : ((reviewRun "no" []).nodes.find ⟨"s", ""⟩).map NodeRun.status = some .pending := by
    decide +kernel
  have hafter : ((advance (catalogueEnv reviewGraph repairedGlobals) 3
      (reviewRun "no" [])).nodes.entries.map fun entry ↦ decide (entry.2.status = .ready ∨
        entry.2.status = .queued)) = [false, false, false, false] := by decide +kernel
  refine ⟨by decide +kernel, reachable_play 0 .inline [] [] (permits_anyOp _ _ _), by decide +kernel,
    quiet_of_entries (by decide +kernel), ?_⟩
  rintro (⟨hsuccess, -⟩ | ⟨id, row, row', -, -, hrow', hstatus⟩)
  · obtain ⟨row, hrow, hstatus⟩ := map_eq_some_iff.mp hpending
    have hrowSuccess := hsuccess _ row hrow
    rw [hstatus] at hrowSuccess
    exact absurd hrowSuccess (by decide)
  · have hmem := List.mem_map_of_mem (f := fun entry : RowId × NodeRun ↦
      decide (entry.2.status = .ready ∨ entry.2.status = .queued))
      ((find_eq_some_iff _ _ _).mp hrow')
    rw [hafter] at hmem
    simp [hstatus] at hmem

end ContentGenerator.Workflows
