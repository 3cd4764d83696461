import ContentGenerator.Lib.Transition
import ContentGenerator.Workflows.Ready

/-!
# Unlocking and the skip cascade

`engine_unlock.py`: what a finished row does to the successors of its node. A row whose output names
a branch promotes the targets of the matching edges and skips the targets of the others; a skip
cascades to the nodes all of whose predecessor rows are skipped.

The cascade is a queue loop. `cascadeSkip_drained` shows that its fuel, one more than the number of
edges, is enough: every edge is pushed at most once, when its source is skipped.
-/

namespace ContentGenerator.Workflows

open Lib List

variable {nodeId : String} {t : NodeTable}

/-- `row.status = status`. -/
def NodeTable.setStatus (t : NodeTable) (id : RowId) (status : NodeStatus) : NodeTable :=
  t.modify id fun row ↦ { row with status := status }

/-- The row a promotion of `nodeId` sets to `READY`: its pending row, when the node is ready. -/
def promotable (g : WorkflowGraph) (t : NodeTable) (nodeId : String) : Option RowId :=
  match t.get nodeId with
  | none => none
  | some current =>
    if current.2.status = .pending ∧ isReady g t nodeId then some current.1 else none

/-- A table with the node ids unlocked or skipped so far. -/
structure Unlocked where
  nodes : NodeTable
  ids : List String := []

/-- Set a ready pending node to `READY` and record it. -/
def Unlocked.promote (g : WorkflowGraph) (acc : Unlocked) (nodeId : String) : Unlocked :=
  match promotable g acc.nodes nodeId with
  | none => acc
  | some id => { nodes := acc.nodes.setStatus id .ready, ids := acc.ids ++ [nodeId] }

def promoteTargets (g : WorkflowGraph) (t : NodeTable) (edges : List GraphEdge) : Unlocked :=
  edges.foldl (fun acc edge ↦ acc.promote g edge.target) { nodes := t }

/-- `_all_preds_skipped`: placeholder rows count. -/
def allPredsSkipped (g : WorkflowGraph) (t : NodeTable) (nodeId : String) : Bool :=
  ¬ (g.predecessors nodeId).isEmpty ∧
    (g.predecessors nodeId).all fun edge ↦
      ¬ (t.rowsOf edge.source).isEmpty ∧
        (t.rowsOf edge.source).all fun entry ↦ entry.2.status = .skipped

def NodeRun.skip (now : Time) (row : NodeRun) : NodeRun :=
  { row with status := .skipped, finishedAt := some now, waitingReason := none, errorJson := none }

/-- One out-edge of a node just skipped: push the target when all its predecessors are skipped,
else promote it when it is ready. The second component is what has been pushed. -/
def cascadeEdge (g : WorkflowGraph) (acc : NodeTable × List String) (edge : GraphEdge) :
    NodeTable × List String :=
  if allPredsSkipped g acc.1 edge.target then (acc.1, acc.2 ++ [edge.target])
  else
    match promotable g acc.1 edge.target with
    | none => acc
    | some id => (acc.1.setStatus id .ready, acc.2)

/-- The body of the queue loop of `cascade_skip`. -/
def cascadeBody (g : WorkflowGraph) (now : Time) (currentId : String) (acc : Unlocked) :
    Unlocked × List String :=
  match acc.nodes.get currentId with
  | none => (acc, [])
  | some current =>
    if ¬ current.2.status.isSkippable then (acc, [])
    else
      let skipped := acc.nodes.modify current.1 (NodeRun.skip now)
      let done := (g.successors currentId).foldl (cascadeEdge g) (skipped, [])
      ({ nodes := done.1, ids := acc.ids ++ [currentId] }, done.2)

/-- `cascade_skip`, with the entries the fuel did not reach. -/
def cascadeLoop (g : WorkflowGraph) (now : Time) (t : NodeTable) (nodeId : String) :
    Unlocked × List String :=
  worklist (cascadeBody g now) (g.edges.length + 1) [nodeId] { nodes := t }

/-- `cascade_skip`: the table and the nodes skipped. -/
def cascadeSkip (g : WorkflowGraph) (now : Time) (t : NodeTable) (nodeId : String) : Unlocked :=
  (cascadeLoop g now t nodeId).1

def unlockJoinsAfterSkip (g : WorkflowGraph) (t : NodeTable) (skippedId : String) : Unlocked :=
  promoteTargets g t (g.successors skippedId)

/-- The branch a finished row names: a string that is not blank, trimmed. -/
def emittedBranch (output : JsonObject) : Option String :=
  match output.get "branch" with
  | some (.str raw) => if pyStrip raw ≠ "" then some (pyStrip raw) else none
  | _ => none

/-- `any(edge.condition for edge in outs)`. -/
def hasConditional (outs : List GraphEdge) : Bool :=
  outs.any fun edge ↦ (edge.condition.getD "") ≠ ""

def unlockEdge (g : WorkflowGraph) (now : Time) (branch : String) (acc : Unlocked)
    (edge : GraphEdge) : Unlocked :=
  if (acc.nodes.get edge.target).isNone then acc
  else if edge.condition = none ∨ edge.condition = some branch then acc.promote g edge.target
  else
    let joins :=
      unlockJoinsAfterSkip g (cascadeSkip g now acc.nodes edge.target).nodes edge.target
    { nodes := joins.nodes, ids := acc.ids ++ joins.ids }

def unlockAfterNodeSuccess (g : WorkflowGraph) (now : Time) (t : NodeTable) (sourceId : String)
    (output : JsonObject) : Unlocked :=
  let outs := g.successors sourceId
  match emittedBranch output with
  | some branch =>
    if hasConditional outs then outs.foldl (unlockEdge g now branch) { nodes := t }
    else promoteTargets g t outs
  | none => promoteTargets g t outs

/-! ### The cascade ends -/

/-- The edges whose source can still be skipped: each can still be pushed once. -/
def pushable (g : WorkflowGraph) (t : NodeTable) : ℕ :=
  (g.edges.filter fun edge ↦
    ((t.get edge.source).map fun current ↦ current.2.status.isSkippable).getD false).length

theorem promotable_eq_some {g : WorkflowGraph} {id : RowId}
    (h : promotable g t nodeId = some id) :
    ∃ row, t.get nodeId = some (id, row) ∧ row.status = .pending ∧ isReady g t nodeId := by
  unfold promotable at h
  split at h
  · simp at h
  · rename_i current hcurrent
    split_ifs at h with hguard
    cases h
    exact ⟨current.2, hcurrent, hguard⟩

/-- A promotion leaves the row skippable. -/
theorem pushable_setStatus_ready (g : WorkflowGraph) {id : RowId}
    (h : promotable g t nodeId = some id) : pushable g (t.setStatus id .ready) = pushable g t := by
  obtain ⟨row, hget, hpending, -⟩ := promotable_eq_some h
  unfold pushable NodeTable.setStatus
  congr 1
  refine filter_congr fun edge _ ↦ ?_
  rw [NodeTable.get_modify, Option.map_map]
  cases hsource : t.get edge.source with
  | none => rfl
  | some current =>
    by_cases hid : current.1 = id
    · have hrow : current.2 = row := by
        have hfound := (NodeTable.get_eq_some hsource).1
        rw [hid, (NodeTable.get_eq_some hget).1] at hfound
        exact (Option.some.inj hfound).symm
      simp [hid, hrow, hpending, NodeStatus.isSkippable]
    · simp [hid]

theorem pushable_cascadeEdge (g : WorkflowGraph) (acc : NodeTable × List String)
    (edge : GraphEdge) :
    pushable g (cascadeEdge g acc edge).1 = pushable g acc.1 ∧
      (cascadeEdge g acc edge).2.length ≤ acc.2.length + 1 := by
  unfold cascadeEdge
  split_ifs with hskipped
  · exact ⟨rfl, by simp⟩
  · split
    · exact ⟨rfl, Nat.le_succ _⟩
    · rename_i id hid
      exact ⟨pushable_setStatus_ready g hid, Nat.le_succ _⟩

/-- The edges out of a node pay for what the cascade pushes when it skips the node. -/
theorem pushable_foldl_cascadeEdge (g : WorkflowGraph) (outs : List GraphEdge)
    (acc : NodeTable × List String) :
    pushable g (outs.foldl (cascadeEdge g) acc).1 = pushable g acc.1 ∧
      (outs.foldl (cascadeEdge g) acc).2.length ≤ acc.2.length + outs.length := by
  induction outs generalizing acc with
  | nil => exact ⟨rfl, le_rfl⟩
  | cons edge rest ih =>
    obtain ⟨hvariant, hlength⟩ := pushable_cascadeEdge g acc edge
    obtain ⟨hvariant', hlength'⟩ := ih (cascadeEdge g acc edge)
    rw [foldl_cons, length_cons]
    exact ⟨hvariant'.trans hvariant, by omega⟩

/-- Skipping a node takes its out-edges off the count. -/
theorem pushable_skip (g : WorkflowGraph) (now : Time)
    {current : RowId × NodeRun} (hget : t.get nodeId = some current)
    (hskippable : current.2.status.isSkippable) :
    pushable g (t.modify current.1 (NodeRun.skip now)) + (g.successors nodeId).length =
      pushable g t := by
  have hnode : current.1.nodeId = nodeId := (NodeTable.get_eq_some hget).2
  have hself : NodeTable.get (t.modify current.1 (NodeRun.skip now)) nodeId =
      some (current.1, NodeRun.skip now current.2) := by
    rw [NodeTable.get_modify, hget]
    simp
  have hother : ∀ other, other ≠ nodeId →
      NodeTable.get (t.modify current.1 (NodeRun.skip now)) other = t.get other := by
    intro other hne
    exact NodeTable.get_modify_of_ne t _ (by rwa [hnode])
  unfold pushable WorkflowGraph.successors
  induction g.edges with
  | nil => rfl
  | cons edge rest ih =>
    by_cases hsource : edge.source = nodeId
    · simp only [List.filter_cons, hsource, hself, hget, hskippable, Option.map_some,
        Option.getD_some, decide_true, if_true, length_cons]
      simp only [NodeRun.skip, NodeStatus.isSkippable] at ih ⊢
      simp only [reduceCtorEq, or_self, decide_false, Bool.false_eq_true, if_false] at ih ⊢
      omega
    · simp only [List.filter_cons, hsource, hother _ hsource, decide_false, Bool.false_eq_true,
        if_false]
      split_ifs
      · simp only [length_cons]
        omega
      · exact ih

/-- The queue of `cascade_skip` is empty when the loop ends: the fuel is enough. -/
theorem cascadeSkip_drained (g : WorkflowGraph) (now : Time) (t : NodeTable) (nodeId : String) :
    (cascadeLoop g now t nodeId).2 = [] := by
  refine worklist_drained (fun acc : Unlocked ↦ pushable g acc.nodes) ?_ _ _ _ ?_
  · intro currentId acc
    unfold cascadeBody
    split
    · exact le_rfl
    · rename_i current hget
      split_ifs with hskippable
      · have hskip := pushable_skip g now hget (by simpa using hskippable)
        obtain ⟨hvariant, hlength⟩ := pushable_foldl_cascadeEdge g (g.successors currentId)
          (acc.nodes.modify current.1 (NodeRun.skip now), [])
        simp only [length_nil] at hlength
        simp only [hvariant]
        omega
      · exact le_rfl
  · have hbound : pushable g t ≤ g.edges.length := length_filter_le _ _
    simp only [length_singleton]
    omega

end ContentGenerator.Workflows
