import Mathlib.Data.List.Dedup
import ContentGenerator.Workflows.Compiler

/-!
# What a valid graph is

The facts the engine relies on, read off an empty error list: node ids are unique and edges connect
declared nodes, every type is registered, the graph has no cycle, a fan-out has one unconditional
successor, and the branches of a condition carry distinct labels. They are the fields of
`ValidGraph`, and `validGraph_of_graphValid` derives them from the checks of the compiler.

Acyclicity comes from the depth-first search. Without an error its visited list is a post-order
(`dfs_postOrder`), and the position of a node in it is a rank that every edge lowers.
-/

namespace ContentGenerator.Workflows

open Lib List

variable {edge : GraphEdge} {g : WorkflowGraph} {impl : NodeImpl} {node : GraphNode}
  {visited nodeIds : List String} {next : String → List String} {nodeId : String} {nodes : List GraphNode}
  {registry : WorkflowNodeRegistry}

namespace Compiler

/-! ### The cycle search -/

/-- A list in which every entry comes after its successors. -/
def PostOrder (next : String → List String) (visited : List String) : Prop :=
  ∀ done nodeId, done ++ [nodeId] <+: visited → ∀ other ∈ next nodeId, other ∈ done

theorem PostOrder.append
    (h : PostOrder next visited)
    (hnext : ∀ other ∈ next nodeId, other ∈ visited) : PostOrder next (visited ++ [nodeId]) := by
  intro done current hprefix other hother
  rcases prefix_concat_iff.mp hprefix with heq | hold
  · obtain ⟨rfl, hcurrent⟩ := append_inj' heq rfl
    rw [singleton_inj.mp hcurrent] at hother
    exact hnext other hother
  · exact h done current hold other hother

/-- In a post-order every successor of an entry stands before it. -/
theorem PostOrder.idxOf_lt
    (h : PostOrder next visited) {other : String} (hmem : nodeId ∈ visited)
    (hother : other ∈ next nodeId) : visited.idxOf other < visited.idxOf nodeId := by
  have hlt : visited.idxOf nodeId < visited.length := idxOf_lt_length_iff.mpr hmem
  have hprefix : visited.take (visited.idxOf nodeId) ++ [nodeId] <+: visited := by
    have htake := take_prefix (visited.idxOf nodeId + 1) visited
    rwa [take_add_one, getElem?_eq_getElem hlt, getElem_idxOf hlt] at htake
  have hdone := h _ nodeId hprefix other hother
  calc visited.idxOf other
      = (visited.take (visited.idxOf nodeId)).idxOf other := by
        conv_lhs => rw [← take_append_drop (visited.idxOf nodeId) visited]
        rw [idxOf_append, if_pos hdone]
    _ < (visited.take (visited.idxOf nodeId)).length := idxOf_lt_length_of_mem hdone
    _ ≤ visited.idxOf nodeId := length_take_le _ _

/-- What a part of the search does when it reports nothing: the nodes visited stay, and stay in
post-order. -/
structure Explores (next : String → List String) (state state' : DfsState) : Prop where
  postOrder : PostOrder next state.visited → PostOrder next state'.visited
  visited : ∀ nodeId ∈ state.visited, nodeId ∈ state'.visited

/-- A loop of the search. Assumes: the body only adds errors, and when it reports nothing it visits
its node. -/
theorem foldl_explores (next : String → List String) {f : DfsState → String → DfsState}
    {l : List String} (herrors : ∀ state nodeId, state.errors <+: (f state nodeId).errors)
    (hstep : ∀ state, ∀ nodeId ∈ l, (f state nodeId).errors = [] → PostOrder next state.visited →
      Explores next state (f state nodeId) ∧ nodeId ∈ (f state nodeId).visited)
    (state : DfsState) (hempty : (l.foldl f state).errors = [])
    (hpost : PostOrder next state.visited) :
    Explores next state (l.foldl f state) ∧ ∀ nodeId ∈ l, nodeId ∈ (l.foldl f state).visited := by
  induction l generalizing state with
  | nil => exact ⟨⟨id, fun _ h ↦ h⟩, by simp⟩
  | cons first rest ih =>
    rw [foldl_cons] at hempty ⊢
    have hprefix : (f state first).errors <+: (rest.foldl f (f state first)).errors :=
      foldlRecOn rest f (motive := fun acc ↦ (f state first).errors <+: acc.errors)
        prefix_rfl fun acc hacc nodeId _ ↦ hacc.trans (herrors acc nodeId)
    rw [hempty, prefix_nil] at hprefix
    obtain ⟨hfirst, hvisited⟩ := hstep state first mem_cons_self hprefix hpost
    obtain ⟨hrest, hall⟩ := ih (fun acc nodeId hmem ↦ hstep acc nodeId (mem_cons_of_mem _ hmem))
      (f state first) hempty (hfirst.postOrder hpost)
    refine ⟨⟨fun h ↦ hrest.postOrder (hfirst.postOrder h),
      fun nodeId h ↦ hrest.visited nodeId (hfirst.visited nodeId h)⟩, fun nodeId hmem ↦ ?_⟩
    rcases mem_cons.mp hmem with rfl | hmem'
    · exact hrest.visited nodeId hvisited
    · exact hall nodeId hmem'

theorem dfs_errors_prefix (next : String → List String) (fuel : ℕ) (stack : List String)
    (nodeId : String) (state : DfsState) :
    state.errors <+: (dfs next fuel stack nodeId state).errors := by
  induction fuel generalizing stack nodeId state with
  | zero => exact prefix_rfl
  | succ fuel ih =>
    unfold dfs
    split_ifs
    · exact prefix_append _ _
    · exact prefix_rfl
    · exact foldlRecOn (next nodeId) _ (motive := fun acc : DfsState ↦
        state.errors <+: acc.errors) prefix_rfl
        fun acc hacc other _ ↦ hacc.trans (ih _ other acc)

/-- A search that reports nothing visits its node and keeps the post-order. The stack holds
distinct nodes, so the fuel lasts.
Assumes: the fuel covers the nodes that are not on the stack. -/
theorem dfs_postOrder
    (hnext : ∀ nodeId, ∀ other ∈ next nodeId, other ∈ nodeIds) (fuel : ℕ) (stack : List String)
    (nodeId : String) (state : DfsState) (hmem : nodeId ∈ nodeIds) (hnodup : stack.Nodup)
    (hstack : ∀ other ∈ stack, other ∈ nodeIds) (hfuel : nodeIds.length < fuel + stack.length)
    (hempty : (dfs next fuel stack nodeId state).errors = [])
    (hpost : PostOrder next state.visited) :
    Explores next state (dfs next fuel stack nodeId state) ∧
      nodeId ∈ (dfs next fuel stack nodeId state).visited := by
  induction fuel generalizing stack nodeId state with
  | zero =>
    have hlength := (subperm_of_subset hnodup hstack).length_le
    omega
  | succ fuel ih =>
    unfold dfs at hempty ⊢
    split_ifs at hempty ⊢ with hcycle hvisited
    · simp at hempty
    · exact ⟨⟨id, fun _ h ↦ h⟩, hvisited⟩
    · have hpush : (stack ++ [nodeId]).Nodup :=
        nodup_append'.mpr ⟨hnodup, nodup_singleton _, by simpa using hcycle⟩
      have hpushed : ∀ other ∈ stack ++ [nodeId], other ∈ nodeIds := by
        intro other hother
        rcases mem_append.mp hother with hold | hnew
        · exact hstack other hold
        · exact mem_singleton.mp hnew ▸ hmem
      have hlength : nodeIds.length < fuel + (stack ++ [nodeId]).length := by
        rw [length_append, length_singleton]
        omega
      obtain ⟨hexplored, hall⟩ := foldl_explores next
        (fun acc other ↦ dfs_errors_prefix next fuel (stack ++ [nodeId]) other acc)
        (fun acc other hother hclean hacc ↦ ih _ other acc (hnext nodeId other hother) hpush hpushed
          hlength hclean hacc) state hempty hpost
      refine ⟨⟨fun _ ↦ (hexplored.postOrder hpost).append hall, fun other hother ↦ ?_⟩, ?_⟩
      · exact mem_append_left _ (hexplored.visited other hother)
      · exact mem_append_right _ (mem_singleton.mpr rfl)

/-- Without a reported cycle there is a rank that every edge raises.
Assumes: the edges connect declared nodes. -/
theorem exists_rank_of_detectCycles {edges : List GraphEdge}
    (hempty : detectCycles nodeIds edges = [])
    (hedges : ∀ edge ∈ edges, edge.source ∈ nodeIds ∧ edge.target ∈ nodeIds) :
    ∃ rank : String → ℕ, ∀ edge ∈ edges, rank edge.source < rank edge.target := by
  have hnext : ∀ nodeId, ∀ other ∈ adjacency nodeIds edges nodeId, other ∈ nodeIds := by
    intro nodeId other hother
    obtain ⟨edge, hedge, rfl⟩ := mem_map.mp hother
    rw [mem_filter] at hedge
    exact (hedges edge hedge.1).2
  have hstart : PostOrder (adjacency nodeIds edges) [] := by
    intro done nodeId hprefix
    exact absurd (prefix_nil.mp hprefix) (by simp)
  obtain ⟨hexplored, hall⟩ : Explores (adjacency nodeIds edges) {} (searchCycles nodeIds edges) ∧
      ∀ nodeId ∈ nodeIds.insertionSort (· ≤ ·), nodeId ∈ (searchCycles nodeIds edges).visited := by
    refine foldl_explores _ ?_ ?_ {} hempty hstart
    · intro acc nodeId
      split_ifs
      · exact prefix_rfl
      · exact dfs_errors_prefix _ _ _ _ _
    · intro acc nodeId hnode hclean hpost
      split_ifs at hclean ⊢ with hvisited
      · exact ⟨⟨id, fun _ h ↦ h⟩, hvisited⟩
      · exact dfs_postOrder hnext _ [] nodeId acc (by simpa using hnode) nodup_nil (by simp)
          (by simp) hclean hpost
  refine ⟨fun nodeId ↦ (searchCycles nodeIds edges).visited.length -
    (searchCycles nodeIds edges).visited.idxOf nodeId, fun edge hedge ↦ ?_⟩
  obtain ⟨hsource, htarget⟩ := hedges edge hedge
  have hmem := hall edge.source (by simpa using hsource)
  have hadjacent : edge.target ∈ adjacency nodeIds edges edge.source :=
    mem_map.mpr ⟨edge, mem_filter.mpr ⟨hedge, by simp [hsource, htarget]⟩, rfl⟩
  have hlt := (hexplored.postOrder hstart).idxOf_lt hmem hadjacent
  have hbound := idxOf_lt_length_of_mem hmem
  dsimp only
  omega

/-! ### The other checks -/

theorem nodup_of_findDuplicateNodeIds {seen : List String}
    (h : findDuplicateNodeIds seen nodes = []) :
    (nodes.map GraphNode.id).Nodup ∧ ∀ node ∈ nodes, node.id ∉ seen := by
  induction nodes generalizing seen with
  | nil => simp
  | cons node rest ih =>
    unfold findDuplicateNodeIds at h
    split_ifs at h with hseen
    obtain ⟨hnodup, hfresh⟩ := ih h
    have hhead : ∀ other ∈ rest, other.id ≠ node.id := by
      intro other hother heq
      exact hfresh other hother (by simp [heq])
    constructor
    · rw [map_cons, nodup_cons]
      refine ⟨fun hmem ↦ ?_, hnodup⟩
      obtain ⟨other, hother, heq⟩ := mem_map.mp hmem
      exact hhead other hother heq
    · intro other hother
      rcases mem_cons.mp hother with rfl | hrest
      · exact hseen
      · exact fun hmem ↦ hfresh other hrest (mem_cons_of_mem _ hmem)

theorem mem_of_validateEdges
    (h : validateEdges g nodeIds = []) (hedge : edge ∈ g.edges) :
    edge.source ∈ nodeIds ∧ edge.target ∈ nodeIds := by
  have hclean := flatMap_eq_nil_iff.mp h edge hedge
  simp only [append_eq_nil_iff] at hclean
  obtain ⟨⟨hsource, htarget⟩, -⟩ := hclean
  constructor
  · by_contra hmem
    rw [if_pos hmem] at hsource
    simp at hsource
  · by_contra hmem
    rw [if_pos hmem] at htarget
    simp at htarget

theorem get_of_resolutionErrors
    (h : resolutionErrors registry nodes = []) (hnode : node ∈ nodes) :
    ∃ impl, registry.get node.type node.version = some impl := by
  have hclean := flatMap_eq_nil_iff.mp h node hnode
  cases hget : registry.get node.type node.version with
  | none =>
    rw [hget] at hclean
    simp at hclean
  | some impl => exact ⟨impl, rfl⟩

theorem mem_assign_self (resolved : Resolved) (nodeId : String) (impl : NodeImpl) :
    (nodeId, impl) ∈ resolved.assign nodeId impl := by
  unfold Resolved.assign
  split_ifs with hany
  · obtain ⟨entry, hentry, hid⟩ := any_eq_true.mp hany
    exact mem_map.mpr ⟨entry, hentry, if_pos (by simpa using hid)⟩
  · exact mem_append_right _ (mem_singleton.mpr rfl)

theorem mem_assign_of_ne {resolved : Resolved} {entry : String × NodeImpl} (hentry : entry ∈ resolved)
    (hne : entry.1 ≠ nodeId) (impl : NodeImpl) :
    entry ∈ resolved.assign nodeId impl := by
  unfold Resolved.assign
  split_ifs
  · exact mem_map.mpr ⟨entry, hentry, if_neg hne⟩
  · exact mem_append_left _ hentry

/-- Every node of a graph with unique ids is resolved to the implementation of its type.
Assumes: the type and version of the node are registered. -/
theorem mem_resolveNodes
    (hnodup : (nodes.map GraphNode.id).Nodup) (hnode : node ∈ nodes)
    (himpl : registry.get node.type node.version = some impl) :
    (node.id, impl) ∈ resolveNodes registry nodes := by
  -- over any step that assigns the implementation of a node
  have hkept : ∀ (step : Resolved → GraphNode → Resolved),
      (∀ resolved other found, registry.get other.type other.version = some found →
        step resolved other = resolved.assign other.id found) →
      (∀ resolved other, registry.get other.type other.version = none →
        step resolved other = resolved) →
      ∀ (l : List GraphNode) (resolved : Resolved),
        ((l.map GraphNode.id).Nodup ∧ node ∈ l) ∨
          ((node.id, impl) ∈ resolved ∧ ∀ other ∈ l, other.id ≠ node.id) →
        (node.id, impl) ∈ l.foldl step resolved := by
    intro step hsome hnone l
    induction l with
    | nil =>
      rintro resolved (⟨-, hmem⟩ | ⟨hmem, -⟩)
      · simp at hmem
      · exact hmem
    | cons first rest ih =>
      intro resolved h
      rw [foldl_cons]
      refine ih _ ?_
      rcases h with ⟨hids, hmem⟩ | ⟨hmem, hfresh⟩
      · rw [map_cons, nodup_cons] at hids
        rcases mem_cons.mp hmem with rfl | hrest
        · refine .inr ⟨?_, fun other hother heq ↦ ?_⟩
          · rw [hsome _ _ _ himpl]
            exact mem_assign_self _ _ _
          · exact hids.1 (heq ▸ mem_map_of_mem hother)
        · exact .inl ⟨hids.2, hrest⟩
      · refine .inr ⟨?_, fun other hother ↦ hfresh other (mem_cons_of_mem _ hother)⟩
        cases hget : registry.get first.type first.version with
        | none =>
          rw [hnone _ _ hget]
          exact hmem
        | some found =>
          rw [hsome _ _ _ hget]
          exact mem_assign_of_ne hmem (hfresh first mem_cons_self).symm _
  unfold resolveNodes
  refine hkept _ (fun resolved other found hget ↦ ?_) (fun resolved other hget ↦ ?_) nodes []
    (.inl ⟨hnodup, hnode⟩)
  · simp only [hget]
  · simp only [hget]

theorem label_of_conditionErrors {outs : List GraphEdge}
    (h : conditionErrors nodeId outs = []) (hedge : edge ∈ outs) :
    pyStrip (edge.condition.getD "") ≠ "" := by
  unfold conditionErrors at h
  by_cases hlength : outs.length < 2
  · rw [if_pos hlength] at h
    simp at h
  · rw [if_neg hlength, append_eq_nil_iff] at h
    intro hblank
    have hany : (outs.map GraphEdge.condition).any fun label ↦ pyStrip (label.getD "") = "" :=
      any_eq_true.mpr ⟨edge.condition, mem_map_of_mem hedge, by simpa using hblank⟩
    have hfirst := h.1
    rw [if_pos hany] at hfirst
    simp at hfirst

end Compiler

/-! ### Valid graphs -/

structure ValidGraph (registry : WorkflowNodeRegistry) (g : WorkflowGraph) : Prop where
  nodup_ids : (g.nodes.map GraphNode.id).Nodup
  source_mem : ∀ edge ∈ g.edges, edge.source ∈ g.nodes.map GraphNode.id
  target_mem : ∀ edge ∈ g.edges, edge.target ∈ g.nodes.map GraphNode.id
  registered : ∀ node ∈ g.nodes, ∃ impl, registry.get node.type node.version = some impl
  acyclic : ∃ rank : String → ℕ, ∀ edge ∈ g.edges, rank edge.source < rank edge.target
  fanOut : ∀ node ∈ g.nodes, node.type = "fan_out" →
    ∃ out, g.successors node.id = [out] ∧ out.condition = none
  branches : ∀ node ∈ g.nodes, node.type = "condition" → ∀ edge ∈ g.successors node.id,
    ∃ label, edge.condition = some label ∧ pyStrip label ≠ ""

theorem type_of_registry_get {type : String} {version : ℕ}
    (h : registry.get type version = some impl) : impl.type = type := by
  have hfound := find?_some h
  simp only [decide_eq_true_eq] at hfound
  exact hfound.1

open Compiler in
/-- A graph without errors is valid. -/
theorem validGraph_of_graphValid
    {availableTags : CompileContext → List String} {context : CompileContext}
    (h : graphValid registry availableTags g context) : ValidGraph registry g := by
  have hclean : validateGraph registry availableTags g context = [] := by
    simpa [graphValid] using h
  simp only [validateGraph, append_eq_nil_iff] at hclean
  obtain ⟨⟨⟨⟨⟨⟨⟨⟨⟨⟨⟨⟨hduplicate, hedges⟩, hresolution⟩, hcycles⟩, -⟩, -⟩, -⟩, -⟩, -⟩, -⟩, -⟩, -⟩,
    hcontrol⟩ := hclean
  have hnodup := (nodup_of_findDuplicateNodeIds hduplicate).1
  -- the control-flow check of a node, by its type
  have hflow : ∀ node ∈ g.nodes, ∃ impl : NodeImpl, impl.type = node.type ∧
      controlFlowErrors g node.id impl = [] := by
    intro node hnode
    obtain ⟨impl, himpl⟩ := get_of_resolutionErrors hresolution hnode
    exact ⟨impl, type_of_registry_get himpl,
      flatMap_eq_nil_iff.mp hcontrol _ (mem_resolveNodes hnodup hnode himpl)⟩
  refine ⟨hnodup, fun edge hedge ↦ (mem_of_validateEdges hedges hedge).1,
    fun edge hedge ↦ (mem_of_validateEdges hedges hedge).2,
    fun node hnode ↦ get_of_resolutionErrors hresolution hnode, ?_, ?_, ?_⟩
  · refine exists_rank_of_detectCycles hcycles fun edge hedge ↦ ?_
    simp only [mem_dedup]
    exact mem_of_validateEdges hedges hedge
  · intro node hnode htype
    obtain ⟨impl, himpl, hempty⟩ := hflow node hnode
    simp only [controlFlowErrors, himpl, htype, String.reduceEq, if_false, if_true] at hempty
    split at hempty
    · rename_i out hout
      refine ⟨out, hout, ?_⟩
      cases hcondition : out.condition with
      | none => rfl
      | some label =>
        rw [hcondition] at hempty
        simp at hempty
    · simp at hempty
  · intro node hnode htype edge hedge
    obtain ⟨impl, himpl, hempty⟩ := hflow node hnode
    simp only [controlFlowErrors, himpl, htype, if_true] at hempty
    have hlabel := label_of_conditionErrors hempty hedge
    cases hcondition : edge.condition with
    | none =>
      rw [hcondition] at hlabel
      exact absurd rfl hlabel
    | some label =>
      rw [hcondition] at hlabel
      exact ⟨label, rfl, hlabel⟩

end ContentGenerator.Workflows
