import ContentGenerator.Workflows.RunModels

/-!
# Readiness

`engine_ready.py` on the rows of a run: when a node may be promoted, and the three questions the
orchestrator asks of all rows at once. `isReady` looks only at the rows that exist when it is called,
through `NodeTable.iterations`.

`edges_satisfied_of_isReady` is what readiness gives outside `any` merges: every incoming edge has
predecessor rows, and all of them satisfy the edge. `isReady_of_edges_satisfied` is the converse.
-/

namespace ContentGenerator.Workflows

open Lib List NodeTable

variable {current : RowId × NodeRun} {edge : GraphEdge}

/-- `_merge_mode`: the mode of a merge node. No float and no container renders as a mode name, so
their text is left blank. -/
def mergeMode (g : WorkflowGraph) (nodeId : String) : Option String :=
  match g.node? nodeId with
  | none => none
  | some graphNode =>
    if graphNode.type ≠ "merge" then none
    else
      match graphNode.config.getTruthy "mode" with
      | some value => some (value.text fun _ ↦ "")
      | none => some "all"

variable {g : WorkflowGraph} {t : NodeTable} {nodeId : String}

theorem mergeMode_eq_none (h : ∀ node ∈ g.nodes, node.type ≠ "merge") (nodeId : String) : mergeMode g nodeId = none := by
  unfold mergeMode
  split
  · rfl
  · rename_i node hnode
    exact if_pos (h node (mem_of_find?_eq_some hnode))

/-- `_branch_satisfied`: an `approved` edge needs success, any other edge also takes a skip. -/
def branchSatisfied (edge : GraphEdge) (status : NodeStatus) : Bool :=
  if edge.condition = some "approved" then status = .succeeded else status.isSuccess

def mergeAnyReady (t : NodeTable) (preds : List GraphEdge) : Bool :=
  preds.any fun edge ↦ (t.iterations edge.source).any fun entry ↦ entry.2.status = .succeeded

def mergeAllReady (t : NodeTable) (preds : List GraphEdge) : Bool :=
  preds.all fun edge ↦
    ¬ (t.iterations edge.source).isEmpty ∧
      (t.iterations edge.source).all fun entry ↦
        ¬ entry.2.status.isOpen ∧ branchSatisfied edge entry.2.status

def branchesReady (t : NodeTable) (preds : List GraphEdge) : Bool :=
  preds.all fun edge ↦
    ¬ (t.iterations edge.source).isEmpty ∧
      (t.iterations edge.source).all fun entry ↦ branchSatisfied edge entry.2.status

def isReady (g : WorkflowGraph) (t : NodeTable) (nodeId : String) : Bool :=
  match t.get nodeId with
  | none => false
  | some current =>
    let preds := g.predecessors nodeId
    if ¬ current.2.status.isSkippable then false
    else if preds.isEmpty then true
    else if mergeMode g nodeId = some "any" then mergeAnyReady t preds
    else if mergeMode g nodeId = some "all" then mergeAllReady t preds
    else branchesReady t preds

def readyNodeIds (g : WorkflowGraph) (t : NodeTable) : List String :=
  (g.nodes.map GraphNode.id).filter fun nodeId ↦ (t.get nodeId).isSome ∧ isReady g t nodeId

def runIsWaiting (t : NodeTable) : Bool := t.entries.any fun entry ↦ entry.2.status = .waiting

def runHasFailure (t : NodeTable) : Bool := t.entries.any fun entry ↦ entry.2.status = .failed

def runAllComplete (t : NodeTable) : Bool :=
  ¬ t.entries.isEmpty ∧ t.entries.all fun entry ↦ entry.2.status.isTerminal

/-! ### What readiness says -/

theorem branchSatisfied_isSuccess {status : NodeStatus}
    (h : branchSatisfied edge status) : status.isSuccess := by
  unfold branchSatisfied at h
  split_ifs at h with happroved
  · simp_all [NodeStatus.isSuccess]
  · exact h

/-- A satisfied status is not open, so the second test of `mergeAllReady` is the first one of
`branchesReady`. -/
theorem mergeAllReady_eq_branchesReady (t : NodeTable) (preds : List GraphEdge) :
    mergeAllReady t preds = branchesReady t preds := by
  unfold mergeAllReady branchesReady
  have hbranch : ∀ (edge : GraphEdge) (status : NodeStatus),
      (decide ((¬ status.isOpen = true) ∧ branchSatisfied edge status = true)) =
        branchSatisfied edge status := by
    intro edge status
    by_cases hsatisfied : branchSatisfied edge status = true
    · have hclosed := branchSatisfied_isSuccess hsatisfied
      have hopen : ¬ status.isOpen = true := by
        revert hclosed
        cases status <;> decide
      simp [hsatisfied, hopen]
    · simp [hsatisfied]
  simp only [hbranch]

theorem isReady_eq (hany : mergeMode g nodeId ≠ some "any")
    (hcurrent : t.get nodeId = some current) (hstatus : current.2.status.isSkippable) :
    isReady g t nodeId = branchesReady t (g.predecessors nodeId) := by
  unfold isReady
  rw [hcurrent]
  simp only [hstatus, not_true_eq_false, if_false, hany, mergeAllReady_eq_branchesReady, ite_self]
  split_ifs with hempty
  · rw [List.isEmpty_iff.mp hempty]
    rfl
  · rfl

theorem get_of_isReady (h : isReady g t nodeId) :
    ∃ current, t.get nodeId = some current ∧ current.2.status.isSkippable := by
  unfold isReady at h
  split at h
  · exact absurd h Bool.false_ne_true
  · rename_i current hcurrent
    refine ⟨current, hcurrent, ?_⟩
    by_contra hstatus
    simp [hstatus] at h

/-- Every incoming edge of a ready node has predecessor rows, and all of them satisfy it.
Assumes: the node is not a merge in mode `any`. -/
theorem edges_satisfied_of_isReady
    (hany : mergeMode g nodeId ≠ some "any") (h : isReady g t nodeId)
    (hedge : edge ∈ g.predecessors nodeId) :
    t.iterations edge.source ≠ [] ∧
      ∀ entry ∈ t.iterations edge.source, branchSatisfied edge entry.2.status := by
  obtain ⟨current, hcurrent, hstatus⟩ := get_of_isReady h
  rw [isReady_eq hany hcurrent hstatus, branchesReady, all_eq_true] at h
  have hall := h edge hedge
  simp only [decide_eq_true_eq, List.isEmpty_iff, all_eq_true] at hall
  exact hall

/-- Assumes: the node has an unstarted row, is not a merge in mode `any`, and every incoming edge is
satisfied by all of its predecessor rows. -/
theorem isReady_of_edges_satisfied (hany : mergeMode g nodeId ≠ some "any")
    (hcurrent : t.get nodeId = some current) (hstatus : current.2.status.isSkippable)
    (h : ∀ edge ∈ g.predecessors nodeId, t.iterations edge.source ≠ [] ∧
      ∀ entry ∈ t.iterations edge.source, branchSatisfied edge entry.2.status) :
    isReady g t nodeId := by
  rw [isReady_eq hany hcurrent hstatus, branchesReady, all_eq_true]
  intro edge hedge
  obtain ⟨hne, hall⟩ := h edge hedge
  simp only [decide_eq_true_eq, List.isEmpty_iff, all_eq_true]
  exact ⟨hne, hall⟩

/-- A rewrite of the rows that keeps successes and keeps unstarted rows unstarted keeps a ready node
ready. -/
theorem isReady_mapValues {f : RowId → NodeRun → NodeRun}
    (hsuccess : ∀ id row, t.find id = some row → row.status.isSuccess →
      (f id row).status = row.status)
    (hskippable : ∀ id row, t.find id = some row → row.status.isSkippable →
      (f id row).status.isSkippable)
    (h : isReady g t nodeId) : isReady g (t.mapValues f) nodeId := by
  obtain ⟨current, hcurrent, hstatus⟩ := get_of_isReady h
  have hcurrent' : NodeTable.get (t.mapValues f) nodeId =
      some (current.1, f current.1 current.2) := by
    rw [get_mapValues, hcurrent]
    rfl
  have hstatus' := hskippable _ _ (get_eq_some hcurrent).1 hstatus
  have hfind : ∀ source, ∀ entry ∈ t.iterations source, t.find entry.1 = some entry.2 := by
    intro source entry hentry
    exact (mem_rowsOf.mp (mem_iterations.mp hentry).1).1
  by_cases hany : mergeMode g nodeId = some "any"
  · unfold isReady at h ⊢
    rw [hcurrent] at h
    rw [hcurrent']
    simp only [hstatus, hstatus', hany, not_true_eq_false, if_false, if_true] at h ⊢
    split_ifs at h ⊢
    · rfl
    · simp only [mergeAnyReady, any_eq_true, decide_eq_true_eq] at h ⊢
      obtain ⟨edge, hedge, entry, hentry, hsucceeded⟩ := h
      refine ⟨edge, hedge, (entry.1, f entry.1 entry.2), ?_, ?_⟩
      · rw [iterations_mapValues]
        exact mem_map_of_mem hentry
      · rw [hsuccess _ _ (hfind _ _ hentry) (by rw [hsucceeded]; rfl), hsucceeded]
  · refine isReady_of_edges_satisfied hany hcurrent' hstatus' fun edge hedge ↦ ?_
    obtain ⟨hne, hall⟩ := edges_satisfied_of_isReady hany h hedge
    rw [iterations_mapValues]
    refine ⟨by simpa using hne, fun entry hentry ↦ ?_⟩
    obtain ⟨old, hold, rfl⟩ := mem_map.mp hentry
    have hsatisfied := hall old hold
    dsimp only
    rwa [hsuccess _ _ (hfind _ _ hold) (branchSatisfied_isSuccess hsatisfied)]

end ContentGenerator.Workflows
