import ContentGenerator.Workflows.Inputs
import ContentGenerator.Workflows.Runs

/-!
# Topological execution

On a graph without fan-outs and without merges in mode `any`, a row that has been released is
released behind its predecessors: in every reachable state all of them are succeeded or skipped, and
succeeded where the edge asks for it (`Reachable.predecessors_done`).

Readiness is tested only when a row is promoted. The invariant is inductive because of what no step
does: a success is never taken back, and no row is released in another way (`Advances`).
-/

namespace ContentGenerator.Workflows

open Lib Relation List Option NodeTable WorkflowGraph
open KeyedTable (find_mapValues find_modify)

variable {row row' : NodeRun} {st : EngineState} {env : EngineEnv} {g : WorkflowGraph} {t t' : NodeTable}

/-! ### Steps that release rows -/

/-- The row has been released: `READY`, `QUEUED`, `RUNNING`, `WAITING`, `FAILED` or `SUCCEEDED`. -/
def NodeStatus.isReleased (status : NodeStatus) : Bool :=
  status ≠ .pending ∧ status ≠ .skipped ∧ status ≠ .cancelled

theorem NodeRun.Proceeds.isReleased (h : row.Proceeds row')
    (hreleased : row'.status.isReleased) : row.status.isReleased := by
  by_contra hrow
  have hcases : row.status = .pending ∨ row.status.isSettled := by
    revert hrow
    cases row.status <;> decide
  rcases hcases with hpending | hsettled
  · rcases h.pending hpending with hs | hs
    · rw [hs] at hreleased
      exact absurd hreleased (by decide)
    · rw [hs] at hreleased
      exact absurd hreleased (by decide)
  · rw [(h.settled hsettled).1] at hreleased
    exact hrow hreleased

/-- The rows stay, a success stays, and a row is released only by the promotion of a ready node. -/
structure Advances (g : WorkflowGraph) (t t' : NodeTable) : Prop where
  isSome : ∀ id, (t'.find id).isSome = (t.find id).isSome
  success : ∀ id row, t.find id = some row → row.status.isSuccess →
    ∃ row', t'.find id = some row' ∧ row'.status = row.status
  released : ∀ id row', t'.find id = some row' → row'.status.isReleased →
    (∃ row, t.find id = some row ∧ row.status.isReleased) ∨ isReady g t id.nodeId

/-- A rewrite of one row. Assumes: a success keeps its status, and a row that is released afterwards
was released before or belongs to a ready node. -/
theorem advances_modify {id : RowId} {f : NodeRun → NodeRun}
    (hsuccess : ∀ row, t.find id = some row → row.status.isSuccess → (f row).status = row.status)
    (hreleased : ∀ row, t.find id = some row → (f row).status.isReleased →
      row.status.isReleased ∨ isReady g t id.nodeId) : Advances g t (t.modify id f) where
  isSome := by
    intro other
    rw [find_modify]
    split_ifs <;> simp
  success := by
    intro other row hrow hsuccess'
    rw [find_modify]
    split_ifs with hother
    · rw [hrow]
      exact ⟨f row, rfl, hsuccess row (hother ▸ hrow) hsuccess'⟩
    · exact ⟨row, hrow, rfl⟩
  released := by
    intro other row' hrow' hreleased'
    rw [find_modify] at hrow'
    split_ifs at hrow' with hother
    · obtain ⟨row, hrow, rfl⟩ := map_eq_some_iff.mp hrow'
      rcases hreleased row (hother ▸ hrow) hreleased' with hbefore | hready
      · exact .inl ⟨row, hrow, hbefore⟩
      · exact .inr (hother ▸ hready)
    · exact .inl ⟨row', hrow', hreleased'⟩

theorem advances_of_promotes (hstep : Promotes g t t') : Advances g t t' := by
  obtain ⟨nodeId, id, row, hget, hpending, hready⟩ := hstep
  obtain ⟨hfind, hid⟩ := get_eq_some hget
  refine advances_modify (fun current hcurrent hsuccess ↦ ?_) fun _ _ _ ↦ .inr (hid ▸ hready)
  rw [show t.find id = some row from hfind] at hcurrent
  rw [← Option.some.inj hcurrent, show row.status = .pending from hpending] at hsuccess
  exact absurd hsuccess (by decide)

theorem advances_of_write {f : RowId → NodeRun → NodeRun}
    (hf : ∀ id row, t.find id = some row → row.Proceeds (f id row)) :
    Advances g t (t.mapValues f) where
  isSome := fun id ↦ by rw [find_mapValues, isSome_map]
  success := by
    intro id row hrow hsuccess
    refine ⟨f id row, by rw [find_mapValues, hrow]; rfl, ?_⟩
    exact ((hf id row hrow).settled (NodeStatus.isSettled_of_isSuccess hsuccess)).1
  released := by
    intro id row' hrow' hreleased
    rw [find_mapValues] at hrow'
    obtain ⟨row, hrow, rfl⟩ := map_eq_some_iff.mp hrow'
    exact .inl ⟨row, hrow, (hf id row hrow).isReleased hreleased⟩

theorem advances_of_quietStep (hstep : QuietStep g t t') : Advances g t t' := by
  cases hstep with
  | promote h => exact advances_of_promotes h
  | write f hf => exact advances_of_write fun id row hrow ↦ (hf id row hrow).toProceeds

/-- A row finishes. -/
theorem advances_of_handsOff {h : HandOff}
    (hoff : HandsOff g st h row row') : Advances g st.nodes h.nodes := by
  rw [hoff.nodes, put, KeyedTable.modify]
  refine advances_of_write fun id current hcurrent ↦ ?_
  split_ifs with hid
  · rw [hid, hoff.find] at hcurrent
    exact Option.some.inj hcurrent ▸ hoff.proceeds
  · exact .refl current

theorem advances_of_unlockStep {skips : GraphEdge → Prop} {t₀ : NodeTable}
    (hstep : UnlockStep g skips t₀ t t') : Advances g t t' := by
  have hskip : ∀ now nodeId id row, t.get nodeId = some (id, row) → row.status.isSkippable →
      Advances g t (t.modify id (NodeRun.skip now)) := by
    intro now nodeId id row hget hskippable
    refine advances_modify (fun current hcurrent hsuccess ↦ ?_) fun current _ h ↦ ?_
    · rw [(get_eq_some hget).1] at hcurrent
      rw [← Option.some.inj hcurrent] at hsuccess
      exact absurd hsuccess (NodeStatus.not_isSuccess_of_isSkippable hskippable)
    · rw [show (NodeRun.skip now current).status = .skipped from rfl] at h
      exact absurd h (by decide)
  cases hstep with
  | promote h => exact advances_of_promotes h
  | skipTarget now edge id row _ hget hskippable => exact hskip now _ id row hget hskippable
  | skipJoin now nodeId id row hget hskippable _ _ => exact hskip now nodeId id row hget hskippable

/-! ### The invariant -/

/-- No row has an iteration key, and every released row has its predecessors done. -/
structure Topological (g : WorkflowGraph) (t : NodeTable) : Prop where
  keyless : ∀ id row, t.find id = some row → id.iterationKey = ""
  done : ∀ id row, t.find id = some row → row.status.isReleased →
    ∀ edge ∈ g.predecessors id.nodeId, ∃ pred,
      t.find ⟨edge.source, ""⟩ = some pred ∧ branchSatisfied edge pred.status

theorem Topological.iterations (h : Topological g t) {nodeId : String} {entry : RowId × NodeRun}
    (hentry : entry ∈ t.iterations nodeId) : t.find ⟨nodeId, ""⟩ = some entry.2 := by
  obtain ⟨⟨source, key⟩, row⟩ := entry
  obtain ⟨hrow, -⟩ := mem_iterations.mp hentry
  obtain ⟨hfind, hsource⟩ := mem_rowsOf.mp hrow
  obtain rfl : source = nodeId := hsource
  have hkey := h.keyless _ row hfind
  simp only at hkey
  rwa [hkey] at hfind

theorem Topological.advances (hany : ∀ nodeId, mergeMode g nodeId ≠ some "any")
    (h : Topological g t) (hstep : Advances g t t') : Topological g t' where
  keyless := by
    intro id row hrow
    have hsome : (t.find id).isSome := by
      rw [← hstep.isSome id, hrow]
      rfl
    obtain ⟨old, hold⟩ := isSome_iff_exists.mp hsome
    exact h.keyless id old hold
  done := by
    intro id row' hrow' hreleased edge hedge
    have hbefore : ∃ pred, t.find ⟨edge.source, ""⟩ = some pred ∧
        branchSatisfied edge pred.status := by
      rcases hstep.released id row' hrow' hreleased with ⟨row, hrow, hrowReleased⟩ | hready
      · exact h.done id row hrow hrowReleased edge hedge
      · obtain ⟨hne, hall⟩ := edges_satisfied_of_isReady (hany _) hready hedge
        obtain ⟨entry, hentry⟩ := exists_mem_of_ne_nil _ hne
        exact ⟨entry.2, h.iterations hentry, hall entry hentry⟩
    obtain ⟨pred, hpred, hsatisfied⟩ := hbefore
    obtain ⟨pred', hpred', hstatus⟩ := hstep.success _ pred hpred
      (branchSatisfied_isSuccess hsatisfied)
    exact ⟨pred', hpred', by rwa [hstatus]⟩

theorem topological_startTable (g : WorkflowGraph) : Topological g (startTable g) where
  keyless := by
    intro id row hrow
    rw [find_startTable] at hrow
    split_ifs at hrow with hkey
    exact hkey
  done := by
    intro id row hrow hreleased edge hedge
    rw [find_startTable] at hrow
    split_ifs at hrow
    obtain ⟨node, hnode, rfl⟩ := map_eq_some_iff.mp hrow
    -- a row that starts `READY` is a root and has no incoming edge
    rw [mem_predecessors] at hedge
    have hroot : node.id ∈ g.rootNodeIds := by
      by_contra hnotRoot
      rw [show (startRow g node).2.status = .pending from if_neg hnotRoot] at hreleased
      exact absurd hreleased (by decide)
    have htarget : node.id ∉ g.edges.map GraphEdge.target := by
      simpa using (mem_filter.mp hroot).2
    refine absurd (List.mem_map.mpr ⟨edge, hedge.1, ?_⟩) htarget
    rw [hedge.2, id_of_node? hnode]

/-- Without fan-outs and iteration keys, a hand-off unlocks. -/
theorem HandsOff.spawnKeys_eq_none {h : HandOff}
    (hoff : HandsOff env.graph st h row row')
    (hfan : ∀ node ∈ env.graph.nodes, node.type ≠ "fan_out")
    (hkeyless : ∀ id row, h.nodes.find id = some row → id.iterationKey = "") :
    h.spawnKeys env = none := by
  have hkey : h.finish.id.iterationKey = "" := by
    refine hkeyless h.finish.id row' ?_
    rw [hoff.nodes]
    exact find_put_self _ _ hoff.find
  rcases h.apply_cases env 0 with ⟨htype, -, -, -⟩ | ⟨-, hne, -, -⟩ | ⟨hnone, -⟩
  · have hheld := hoff.held
    rw [htype] at hheld
    obtain ⟨-, node, hnode, hnodeType⟩ := hheld
    exact absurd hnodeType (hfan node (mem_of_find?_eq_some hnode))
  · exact absurd hkey hne
  · exact hnone

/-- The invariant holds in every state reached without `retry_from_node`.
Assumes: the graph has no fan-out and no merge in mode `any`. -/
theorem Reachable.topological (hfan : ∀ node ∈ env.graph.nodes, node.type ≠ "fan_out")
    (hany : ∀ nodeId, mergeMode env.graph nodeId ≠ some "any")
    (hst : Reachable env (fun _ op _ ↦ ¬ op.isRetryFrom) st) : Topological env.graph st.nodes := by
  refine hst.rows_invariant (topological_startTable env.graph)
    (fun _ _ hinv hstep ↦ hinv.advances hany (advances_of_quietStep hstep)) ?_ ?_
  · intro now op st h row row' _ _ hoff hinv
    have hfinished := hinv.advances hany (advances_of_handsOff hoff)
    exact ReflTransGen.invariant (P := Topological env.graph)
      (fun _ _ hinv hstep ↦ hinv.advances hany (advances_of_unlockStep hstep))
      (h.apply_unlocks (hoff.spawnKeys_eq_none hfan hfinished.keyless)) hfinished
  · intro now nodeId st t t' hallowed
    exact absurd rfl hallowed

/-- On a valid graph without fan-outs and without merges in mode `any`, in every state reached by
any operations but `retry_from_node`, all predecessor rows of a released row are succeeded or
skipped, and succeeded when the edge is an `approved` one. -/
theorem Reachable.predecessors_done {st : EngineState}
    (hst : Reachable env (fun _ op _ ↦ ¬ op.isRetryFrom) st)
    {availableTags : CompileContext → List String} {context : CompileContext}
    (_hvalid : graphValid env.registry availableTags env.graph context)
    (hfan : ∀ node ∈ env.graph.nodes, node.type ≠ "fan_out")
    (hany : ∀ nodeId, mergeMode env.graph nodeId ≠ some "any") {id : RowId} {row : NodeRun}
    (hrow : st.nodes.find id = some row) (hreleased : row.status.isReleased) {edge : GraphEdge}
    (hedge : edge ∈ env.graph.predecessors id.nodeId) :
    st.nodes.rowsOf edge.source ≠ [] ∧
      ∀ pred ∈ st.nodes.rowsOf edge.source, branchSatisfied edge pred.2.status := by
  have hinv := hst.topological hfan hany
  obtain ⟨pred, hpred, hsatisfied⟩ := hinv.done id row hrow hreleased edge hedge
  have hmem : ((⟨edge.source, ""⟩, pred) : RowId × NodeRun) ∈ st.nodes.rowsOf edge.source :=
    mem_rowsOf.mpr ⟨hpred, rfl⟩
  refine ⟨ne_nil_of_mem hmem, ?_⟩
  rintro ⟨⟨source, key⟩, other⟩ hother
  obtain ⟨hfind, hsource⟩ := mem_rowsOf.mp hother
  obtain rfl : source = edge.source := hsource
  have hkey := hinv.keyless _ other hfind
  simp only at hkey
  rw [hkey, hpred] at hfind
  rwa [← Option.some.inj hfind]

def delayGraph : WorkflowGraph where
  nodes := [{ id := "t", type := "manual_trigger" }, { id := "d", type := "delay" }]
  edges := [{ source := "t", target := "d" }]

/-- The run in which the trigger has succeeded and the delay is claimed. -/
def delayRun : EngineState :=
  (catalogueEnv delayGraph repairedGlobals).play
    [(1, execSucceeds "t" "" 0 [("payload", .obj []), ("trigger_type", .str "manual_trigger")])]
    (startRun (catalogueEnv delayGraph repairedGlobals) 0 .inline [] [])

/-- The delay is queued, and the trigger before it has succeeded. -/
theorem delayRun_predecessors_done :
    (delayRun.nodes.find ⟨"d", ""⟩).map NodeRun.status = some .queued ∧
      ∀ pred ∈ delayRun.nodes.rowsOf "t",
        branchSatisfied { source := "t", target := "d" } pred.2.status := by
  have hqueued : (delayRun.nodes.find ⟨"d", ""⟩).map NodeRun.status = some .queued := by
    decide +kernel
  obtain ⟨row, hrow, hstatus⟩ := map_eq_some_iff.mp hqueued
  have hst : Reachable (catalogueEnv delayGraph repairedGlobals) (fun _ op _ ↦ ¬ op.isRetryFrom)
      delayRun := reachable_play 0 .inline [] [] ⟨by simp [execSucceeds, execReturns, Op.isRetryFrom],
      trivial⟩
  have hany : ∀ nodeId, mergeMode delayGraph nodeId ≠ some "any" := by
    intro nodeId
    rw [mergeMode_eq_none (by simp [delayGraph])]
    simp
  have hvalid : graphValid catalogue (fun _ ↦ []) delayGraph {} := by decide +kernel
  have hfan : ∀ node ∈ delayGraph.nodes, node.type ≠ "fan_out" := by simp [delayGraph]
  have hedge : _ ∈ delayGraph.predecessors "d" := mem_singleton.mpr rfl
  exact ⟨hqueued, (Reachable.predecessors_done hst hvalid hfan hany hrow (by rw [hstatus]; rfl)
    hedge).2⟩

end ContentGenerator.Workflows
